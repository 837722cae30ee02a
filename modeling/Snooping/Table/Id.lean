/-! The tables a controller manages. -/
namespace Snooping

inductive TableId
  | timeout
  | rxPortGroup
  | txPortGroup
  | generalQueryExpectation
  | reportExpectation
  | pimExpectation
  | generalQueryTx
  | reportTx
deriving DecidableEq

namespace TableId

def all : List TableId :=
  [timeout, rxPortGroup, txPortGroup, generalQueryExpectation, reportExpectation, pimExpectation,
    generalQueryTx, reportTx]

def name : TableId → String
  | timeout => "timeout"
  | rxPortGroup => "rx_port_group"
  | txPortGroup => "tx_port_group"
  | generalQueryExpectation => "general_query_expectation"
  | reportExpectation => "report_expectation"
  | pimExpectation => "pim_expectation"
  | generalQueryTx => "general_query_tx"
  | reportTx => "report_tx"

def ofName? (s : String) : Option TableId := all.find? (·.name = s)

def unknownMessage (s : String) : String := "unknown table '" ++ s ++ "'"

theorem ofName?_name (t : TableId) : ofName? t.name = some t := by
  cases t <;> decide

end TableId
end Snooping
