import Snooping.Table.Id

/-! The one way a tick can fail: a due key without an entry. -/
namespace Snooping

structure Fault where
  table : TableId
  key : String
deriving DecidableEq

def Fault.message (f : Fault) : String :=
  f.table.name ++ ": timer fired for deleted entry " ++ f.key

end Snooping
