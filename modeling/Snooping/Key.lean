import Snooping.Table.Reading

/-! Keys of expectations and transmissions. -/
namespace Snooping

structure VlanKey where
  name : String
  vlan : UInt16
deriving DecidableEq

structure GroupKey where
  name : String
  vlan : UInt16
  group : Ipv4
deriving DecidableEq

namespace VlanKey

/-- The key with the VLAN cut to 12 bits. -/
def of (name : String) (vlan : UInt16) : VlanKey := ⟨name, vlan &&& vidMask⟩

def text (k : VlanKey) : String := k.name ++ "/vlan " ++ k.vlan.toNat.repr

def reading : Reading VlanKey := do
  let name ← .field .name
  let vlan ← .field .vlanVid
  return ⟨name, vlan⟩

end VlanKey

namespace GroupKey

/-- The key with the VLAN cut to 12 bits. -/
def of (name : String) (vlan : UInt16) (group : Ipv4) : GroupKey := ⟨name, vlan &&& vidMask, group⟩

def text (k : GroupKey) : String :=
  k.name ++ "/vlan " ++ k.vlan.toNat.repr ++ "/" ++ k.group.text

def reading : Reading GroupKey := do
  let name ← .field .name
  let vlan ← .field .vlanVid
  let group ← .field .group
  return ⟨name, vlan, group⟩

end GroupKey
end Snooping
