import Snooping.Table.Error

/-! Table requests of the controller and their answers. -/
namespace Snooping

inductive TableOp
  | add (key value : List Field)
  | modify (key value : List Field)
  | delete (key : List Field)
  | getStats (key : List Field)

namespace TableOp

inductive Kind
  | add
  | modify
  | delete
  | getStats
deriving DecidableEq

def Kind.all : List Kind := [.add, .modify, .delete, .getStats]

def Kind.name : Kind → String
  | add => "add"
  | modify => "modify"
  | delete => "delete"
  | getStats => "get_stats"

def Kind.ofName? (s : String) : Option Kind := all.find? (·.name = s)

theorem Kind.ofName?_name (k : Kind) : ofName? k.name = some k := by
  cases k <;> decide

def kind : TableOp → Kind
  | add _ _ => .add
  | modify _ _ => .modify
  | delete _ => .delete
  | getStats _ => .getStats

end TableOp

structure TableRequest where
  table : TableId
  op : TableOp

inductive TableResponse
  | ok
  | stats (fields : List Field)
  | error (code : ErrorCode) (message : String)

def TableResponse.ofError (e : TableError) : TableResponse := .error e.code e.message

end Snooping
