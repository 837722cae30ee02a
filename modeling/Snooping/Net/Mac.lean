import Snooping.Text.Hex

/-! Ethernet addresses and their colon-separated text. -/
namespace Snooping

structure Mac where
  a : UInt8
  b : UInt8
  c : UInt8
  d : UInt8
  e : UInt8
  f : UInt8
deriving DecidableEq

/-- Why a text is no Ethernet address. Each cause carries the whole text. -/
inductive MacError
  | tooFew (text : String)
  | badOctet (part text : String)
  | tooMany (text : String)
deriving DecidableEq

def MacError.message : MacError → String
  | tooFew s => "MAC address '" ++ s ++ "' has fewer than 6 octets"
  | badOctet p s => "invalid octet '" ++ p ++ "' in MAC address '" ++ s ++ "'"
  | tooMany s => "MAC address '" ++ s ++ "' has more than 6 octets"

namespace Mac

def octets (m : Mac) : List UInt8 := [m.a, m.b, m.c, m.d, m.e, m.f]

def chars (m : Mac) : List Char :=
  [':'].intercalate (m.octets.map Text.Hex.ofByte)

def text (m : Mac) : String := String.ofList m.chars

/-- Two characters: hexadecimal digits, or a plus sign before one digit. -/
def octet? : List Char → Option UInt8
  | ['+', lo] => (Text.Hex.digit? lo).map UInt8.ofNat
  | [hi, lo] => Text.Hex.pair? hi lo
  | _ => none

/-- Reads exactly `n` octets, the first fault winning. -/
def readOctets (s : String) : Nat → List (List Char) → Except MacError (List UInt8)
  | 0, [] => .ok []
  | 0, _ :: _ => .error (.tooMany s)
  | _ + 1, [] => .error (.tooFew s)
  | n + 1, part :: parts =>
    match octet? part with
    | none => .error (.badOctet (String.ofList part) s)
    | some o => (readOctets s n parts).map (o :: ·)

def ofText (s : String) : Except MacError Mac :=
  match readOctets s 6 (s.toList.splitOn ':') with
  | .error e => .error e
  | .ok [a, b, c, d, e, f] => .ok ⟨a, b, c, d, e, f⟩
  | .ok _ => .error (.tooFew s)

theorem octet?_ofByte (b : UInt8) : octet? (Text.Hex.ofByte b) = some b := by
  have h : ∀ n < 256, octet? (Text.Hex.ofByte (UInt8.ofNat n)) = some (UInt8.ofNat n) := by
    decide +kernel
  have hb := h b.toNat (UInt8.toNat_lt b)
  rwa [UInt8.ofNat_toNat] at hb

theorem readOctets_ofByte (s : String) (bs : List UInt8) :
    readOctets s bs.length (bs.map Text.Hex.ofByte) = .ok bs := by
  induction bs with
  | nil => rfl
  | cons b rest ih => simp [readOctets, octet?_ofByte, ih, Except.map]

theorem splitOn_chars (m : Mac) : m.chars.splitOn ':' = m.octets.map Text.Hex.ofByte := by
  refine List.splitOn_intercalate ':' ?_ (by simp [octets])
  have hc : ∀ n < 16, Nat.digitChar n ≠ ':' := by decide
  intro part hp
  obtain ⟨b, -, rfl⟩ := List.mem_map.mp hp
  have hb := UInt8.toNat_lt b
  simp [Text.Hex.ofByte, (hc (b.toNat / 16) (by omega)).symm, (hc (b.toNat % 16) (by omega)).symm]

theorem ofText_text (m : Mac) : ofText m.text = .ok m := by
  have h := readOctets_ofByte m.text m.octets
  rw [← splitOn_chars] at h
  rw [ofText, text, String.toList_ofList, ← text]
  simp only [octets, List.length_cons, List.length_nil, Nat.zero_add] at h
  simp [h]

end Mac
end Snooping
