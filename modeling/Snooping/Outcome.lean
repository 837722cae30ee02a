/-! Verdicts on snooped frames and the reasons for them. -/
namespace Snooping

/-- Dropped frames are accounted for here; passed ones go on to the controller. -/
inductive Disposition
  | drop
  | pass
deriving DecidableEq

def Disposition.name : Disposition → String
  | drop => "drop"
  | pass => "pass"

def Disposition.all : List Disposition := [drop, pass]

def Disposition.ofName? (s : String) : Option Disposition := all.find? (·.name = s)

theorem Disposition.ofName?_name (d : Disposition) : ofName? d.name = some d := by
  cases d <;> decide

inductive Outcome
  | noVlan
  | notIpv4
  | malformed
  | igmpBadLength
  | igmpBadChecksum
  | generalQueryHit
  | generalQueryMiss
  | groupSpecificQuery
  | reportHit
  | reportMiss
  | leave
  | igmpOther
  | pimBad
  | pimHelloHit
  | pimHelloMiss
  | pimOther
  | otherProtocol
deriving DecidableEq

namespace Outcome

def all : List Outcome :=
  [noVlan, notIpv4, malformed, igmpBadLength, igmpBadChecksum, generalQueryHit, generalQueryMiss,
    groupSpecificQuery, reportHit, reportMiss, leave, igmpOther, pimBad, pimHelloHit, pimHelloMiss,
    pimOther, otherProtocol]

def name : Outcome → String
  | noVlan => "no_vlan"
  | notIpv4 => "not_ipv4"
  | malformed => "malformed"
  | igmpBadLength => "igmp_bad_length"
  | igmpBadChecksum => "igmp_bad_checksum"
  | generalQueryHit => "general_query_hit"
  | generalQueryMiss => "general_query_miss"
  | groupSpecificQuery => "group_specific_query"
  | reportHit => "report_hit"
  | reportMiss => "report_miss"
  | leave => "leave"
  | igmpOther => "igmp_other"
  | pimBad => "pim_bad"
  | pimHelloHit => "pim_hello_hit"
  | pimHelloMiss => "pim_hello_miss"
  | pimOther => "pim_other"
  | otherProtocol => "other_protocol"

def disposition : Outcome → Disposition
  | generalQueryHit | groupSpecificQuery | reportHit | igmpOther | pimHelloHit => .drop
  | _ => .pass

end Outcome
end Snooping
