import Snooping.Net.Mac
import Snooping.Text.Ascii

/-!
Which texts are Ethernet addresses. They are six groups of two characters with colons between; a
group is two hexadecimal digits, or a plus sign in front of one, which counts as a zero.
-/
namespace Snooping.Mac

def IsHexDigit (c : Char) : Prop := '0' ≤ c ∧ c ≤ '9' ∨ 'a' ≤ c ∧ c ≤ 'f' ∨ 'A' ≤ c ∧ c ≤ 'F'

instance (c : Char) : Decidable (IsHexDigit c) := inferInstanceAs (Decidable (_ ∨ _))

/-- Six groups with colons between, each of a `first` character and a hexadecimal digit. -/
def Spelled (first : Char → Prop) (s : String) : Prop :=
  ∃ parts : List (List Char), parts.length = 6 ∧ s.toList = [':'].intercalate parts ∧
    ∀ part ∈ parts, ∃ hi lo, part = [hi, lo] ∧ first hi ∧ IsHexDigit lo

/-- A sign counts as a zero, and letters are written in lower case. -/
def written (c : Char) : Char := if c = '+' then '0' else c.toLower

variable {s : String} {m : Mac} {parts : List (List Char)} {bs : List UInt8} {n : Nat} {b : UInt8}

theorem digit?_isSome_iff (c : Char) : (Text.Hex.digit? c).isSome = true ↔ IsHexDigit c := by
  unfold Text.Hex.digit? IsHexDigit
  split
  · simp_all
  · split
    · simp_all
    · split <;> simp_all

/-- A digit is written in lower case, whatever its case was. -/
theorem digitChar_of_digit? {c : Char} {d : Nat} (h : Text.Hex.digit? c = some d) :
    d < 16 ∧ Nat.digitChar d = written c := by
  have hall : ∀ k < 128, ∀ d ∈ Text.Hex.digit? (Char.ofNat k),
      d < 16 ∧ Nat.digitChar d = written (Char.ofNat k) := by
    decide +kernel
  have hc : IsHexDigit c := (digit?_isSome_iff c).mp (by rw [h]; rfl)
  have hlt : c.toNat < 128 := by
    rcases hc with hc | hc | hc
    all_goals exact Nat.lt_of_le_of_lt hc.2 (by decide)
  have hk := hall c.toNat hlt
  rw [Char.ofNat_toNat] at hk
  exact hk d h

/-- The digits of a number are its quotient and its remainder. -/
theorem ofByte_pair {h l : Nat} (hh : h < 16) (hl : l < 16) :
    Text.Hex.ofByte (UInt8.ofNat (16 * h + l)) = [Nat.digitChar h, Nat.digitChar l] := by
  have hb : (UInt8.ofNat (16 * h + l)).toNat = 16 * h + l := by
    rw [UInt8.toNat_ofNat']
    omega
  have hdiv : (16 * h + l) / 16 = h := by omega
  have hmod : (16 * h + l) % 16 = l := by omega
  rw [Text.Hex.ofByte, hb, hdiv, hmod]

/-- A group that is read is well formed, and its octet is written as the group was. -/
theorem octet?_eq_some {part : List Char} (h : octet? part = some b) :
    (∃ hi lo, part = [hi, lo] ∧ (hi = '+' ∨ IsHexDigit hi) ∧ IsHexDigit lo) ∧
      Text.Hex.ofByte b = part.map written := by
  revert h
  fun_cases octet? part with
  | case1 lo =>
    intro h
    obtain ⟨l, hl, rfl⟩ := Option.map_eq_some_iff.mp h
    obtain ⟨hlt, hchar⟩ := digitChar_of_digit? hl
    refine ⟨⟨'+', lo, rfl, .inl rfl, (digit?_isSome_iff lo).mp (by rw [hl]; rfl)⟩, ?_⟩
    have hbyte := ofByte_pair (h := 0) (by decide) hlt
    rw [Nat.mul_zero, Nat.zero_add] at hbyte
    rw [hbyte, hchar]
    rfl
  | case2 hi lo hne =>
    intro h
    obtain ⟨d, hd, h⟩ := Option.bind_eq_some_iff.mp h
    obtain ⟨l, hl, h⟩ := Option.bind_eq_some_iff.mp h
    cases h
    obtain ⟨hdlt, hdchar⟩ := digitChar_of_digit? hd
    obtain ⟨hllt, hlchar⟩ := digitChar_of_digit? hl
    refine ⟨⟨hi, lo, rfl, .inr ((digit?_isSome_iff hi).mp (by rw [hd]; rfl)),
      (digit?_isSome_iff lo).mp (by rw [hl]; rfl)⟩, ?_⟩
    rw [ofByte_pair hdlt hllt, hdchar, hlchar]
    rfl
  | case3 =>
    intro h
    cases h

/-- Every well-formed group is read. -/
theorem exists_octet {hi lo : Char} (hhi : hi = '+' ∨ IsHexDigit hi) (hlo : IsHexDigit lo) :
    ∃ b, octet? [hi, lo] = some b := by
  obtain ⟨l, hl⟩ := Option.isSome_iff_exists.mp ((digit?_isSome_iff lo).mpr hlo)
  by_cases hplus : hi = '+'
  · subst hplus
    exact ⟨UInt8.ofNat l, congrArg (Option.map UInt8.ofNat) hl⟩
  · obtain ⟨d, hd⟩ := Option.isSome_iff_exists.mp
      ((digit?_isSome_iff hi).mpr (hhi.resolve_left hplus))
    refine ⟨UInt8.ofNat (16 * d + l), ?_⟩
    unfold octet?
    split
    · rename_i heq
      cases heq
      exact (hplus rfl).elim
    · rename_i heq
      cases heq
      rw [Text.Hex.pair?, hd, hl]
      rfl
    · rename_i hno
      exact (hno hi lo rfl).elim

/-- Octets that are read are those of the groups, one by one, and no group is left over. -/
theorem map_octet?_of_readOctets (h : readOctets s n parts = .ok bs) :
    parts.map octet? = bs.map some ∧ bs.length = n := by
  induction n generalizing parts bs with
  | zero =>
    cases parts with
    | nil =>
      cases h
      exact ⟨rfl, rfl⟩
    | cons part parts => cases h
  | succ n ih =>
    cases parts with
    | nil => cases h
    | cons part parts =>
      rw [readOctets] at h
      cases ho : octet? part with
      | none =>
        rw [ho] at h
        cases h
      | some o =>
        rw [ho] at h
        cases hr : readOctets s n parts with
        | error e =>
          rw [hr] at h
          cases h
        | ok os =>
          rw [hr] at h
          cases h
          obtain ⟨hmap, hlen⟩ := ih hr
          refine ⟨?_, congrArg (· + 1) hlen⟩
          rw [List.map_cons, List.map_cons, ho, hmap]

theorem readOctets_of_map_octet? (h : parts.map octet? = bs.map some) :
    readOctets s bs.length parts = .ok bs := by
  induction bs generalizing parts with
  | nil =>
    rw [List.map_nil, List.map_eq_nil_iff] at h
    rw [h]
    rfl
  | cons b bs ih =>
    rw [List.map_cons, List.map_eq_cons_iff] at h
    obtain ⟨part, rest, rfl, hb, hrest⟩ := h
    rw [List.length_cons, readOctets, hb, ih hrest]
    rfl

/-- A text is read as the address whose octets its groups spell. -/
theorem ofText_eq_ok_iff :
    ofText s = .ok m ↔ (s.toList.splitOn ':').map octet? = m.octets.map some := by
  constructor
  · intro h
    unfold ofText at h
    split at h
    · cases h
    · rename_i a b c d e f hr
      cases h
      exact (map_octet?_of_readOctets hr).1
    · cases h
  · intro h
    have hr := readOctets_of_map_octet? (s := s) h
    rw [ofText]
    simp only [octets, List.length_cons, List.length_nil, Nat.zero_add] at hr
    rw [hr]

/-- What is done to every character is done within the groups and to what stands between them. -/
theorem map_intercalate (f : Char → Char) (sep : Char) (parts : List (List Char)) :
    ([sep].intercalate parts).map f = [f sep].intercalate (parts.map (List.map f)) := by
  induction parts with
  | nil => rfl
  | cons part parts ih =>
    cases parts with
    | nil => simp only [List.intercalate_singleton, List.map_cons, List.map_nil]
    | cons part' parts =>
      rw [List.map_cons, List.map_cons, List.intercalate_cons_cons, List.intercalate_cons_cons,
        List.map_append, List.map_append, ih, List.map_cons, List.map_cons, List.map_nil]

theorem mem_intercalate {sep c : Char} {part : List Char} (hp : part ∈ parts) (hc : c ∈ part) :
    c ∈ [sep].intercalate parts := by
  induction parts with
  | nil => cases hp
  | cons first parts ih =>
    cases parts with
    | nil =>
      rw [List.mem_singleton.mp hp] at hc
      rwa [List.intercalate_singleton]
    | cons part' parts =>
      rw [List.intercalate_cons_cons]
      rcases List.mem_cons.mp hp with rfl | hp
      · exact List.mem_append_left _ (List.mem_append_left _ hc)
      · exact List.mem_append_right _ (ih hp)

theorem map_ofByte (h : parts.map octet? = bs.map some) :
    bs.map Text.Hex.ofByte = parts.map (List.map written) := by
  induction bs generalizing parts with
  | nil =>
    rw [List.map_nil, List.map_eq_nil_iff] at h
    rw [h]
    rfl
  | cons b bs ih =>
    rw [List.map_cons, List.map_eq_cons_iff] at h
    obtain ⟨part, rest, rfl, hb, hrest⟩ := h
    rw [List.map_cons, List.map_cons, (octet?_eq_some hb).2, ih hrest]

/-- The groups of a text that is read are well formed, and the address is written as they were. -/
theorem spelled_of_ofText (h : ofText s = .ok m) :
    Spelled (fun c => c = '+' ∨ IsHexDigit c) s ∧ m.chars = s.toList.map written := by
  have hmap := ofText_eq_ok_iff.mp h
  have hjoin : s.toList = [':'].intercalate (s.toList.splitOn ':') :=
    (List.intercalate_splitOn ':').symm
  generalize s.toList.splitOn ':' = parts at hmap hjoin
  have hlen : parts.length = 6 := by
    have hl := congrArg List.length hmap
    rwa [List.length_map, List.length_map] at hl
  refine ⟨⟨parts, hlen, hjoin, ?_⟩, ?_⟩
  · intro part hp
    have hm := List.mem_map_of_mem (f := octet?) hp
    rw [hmap] at hm
    obtain ⟨b, -, hb⟩ := List.mem_map.mp hm
    exact (octet?_eq_some hb.symm).1
  · rw [chars, map_ofByte hmap, hjoin, map_intercalate]
    rfl

/-- A group holds no colon, so the text is taken apart where its groups were joined. -/
theorem splitOn_of_groups (hlen : parts.length = 6) (hjoin : s.toList = [':'].intercalate parts)
    (hgroups : ∀ part ∈ parts, ∃ hi lo, part = [hi, lo] ∧ (hi = '+' ∨ IsHexDigit hi) ∧
      IsHexDigit lo) : s.toList.splitOn ':' = parts := by
  rw [hjoin]
  refine List.splitOn_intercalate ':' ?_ ?_
  · intro part hp hc
    obtain ⟨hi, lo, rfl, hhi, hlo⟩ := hgroups part hp
    rw [List.mem_cons, List.mem_singleton] at hc
    rcases hc with rfl | rfl
    · exact absurd hhi (by decide)
    · exact absurd hlo (by decide)
  · rintro rfl
    cases hlen

theorem ofText_of_spelled (h : Spelled (fun c => c = '+' ∨ IsHexDigit c) s) :
    ∃ m, ofText s = .ok m := by
  obtain ⟨parts, hlen, hjoin, hgroups⟩ := h
  have hsplit := splitOn_of_groups hlen hjoin hgroups
  have hread : ∀ part ∈ parts, octet? part = some ((octet? part).getD 0) := by
    intro part hp
    obtain ⟨hi, lo, rfl, hhi, hlo⟩ := hgroups part hp
    obtain ⟨b, hb⟩ := exists_octet hhi hlo
    rw [hb]
    rfl
  have hmap : parts.map octet? = (parts.map fun part => (octet? part).getD 0).map some := by
    rw [List.map_map]
    exact List.map_congr_left hread
  have hlen' : (parts.map fun part => (octet? part).getD 0).length = 6 := by
    rw [List.length_map, hlen]
  generalize parts.map (fun part => (octet? part).getD 0) = bs at hmap hlen'
  obtain _ | ⟨a, _ | ⟨b, _ | ⟨c, _ | ⟨d, _ | ⟨e, _ | ⟨f, _ | ⟨g, bs⟩⟩⟩⟩⟩⟩⟩ := bs
  case cons.cons.cons.cons.cons.cons.nil =>
    exact ⟨⟨a, b, c, d, e, f⟩, ofText_eq_ok_iff.mpr (hsplit.symm ▸ hmap)⟩
  all_goals simp at hlen'

/-- Without a sign, both characters of every group are digits. -/
theorem spelled_unsigned (hsign : '+' ∉ s.toList) :
    Spelled (fun c => c = '+' ∨ IsHexDigit c) s ↔ Spelled IsHexDigit s := by
  constructor
  · rintro ⟨parts, hlen, hjoin, hgroups⟩
    refine ⟨parts, hlen, hjoin, fun part hp => ?_⟩
    obtain ⟨hi, lo, rfl, rfl | hhi, hlo⟩ := hgroups part hp
    · rw [hjoin] at hsign
      exact (hsign (mem_intercalate hp (List.mem_cons_self ..))).elim
    · exact ⟨hi, lo, rfl, hhi, hlo⟩
  · rintro ⟨parts, hlen, hjoin, hgroups⟩
    refine ⟨parts, hlen, hjoin, fun part hp => ?_⟩
    obtain ⟨hi, lo, rfl, hhi, hlo⟩ := hgroups part hp
    exact ⟨hi, lo, rfl, .inr hhi, hlo⟩

theorem map_written (hsign : '+' ∉ s.toList) :
    s.toList.map written = s.toList.map Char.toLower := by
  refine List.map_congr_left fun c hc => if_neg ?_
  rintro rfl
  exact hsign hc

/-- A text is an address exactly if its groups are digits, or a sign and a digit, and it stands for
the address that is written as the text is, a sign counting as a zero. Texts without a sign are the
addresses in either case. What is written is read back. -/
theorem texts_spelled (s : String) :
    ((∃ m, ofText s = .ok m) ↔ Spelled (fun c => c = '+' ∨ IsHexDigit c) s) ∧
      (∀ m, ofText s = .ok m → m.text = String.ofList (s.toList.map written)) ∧
      ('+' ∉ s.toList → ((∃ m, ofText s = .ok m) ↔ Spelled IsHexDigit s) ∧
        ∀ m, ofText s = .ok m → m.text = Text.asciiLower s) ∧
      ∀ m, ofText m.text = .ok m := by
  have hread : (∃ m, ofText s = .ok m) ↔ Spelled (fun c => c = '+' ∨ IsHexDigit c) s :=
    ⟨fun ⟨_, h⟩ => (spelled_of_ofText h).1, ofText_of_spelled⟩
  have htext : ∀ m, ofText s = .ok m → m.text = String.ofList (s.toList.map written) :=
    fun m h => congrArg String.ofList (spelled_of_ofText h).2
  refine ⟨hread, htext, fun hsign => ⟨hread.trans (spelled_unsigned hsign), fun m h => ?_⟩,
    ofText_text⟩
  rw [htext m h, map_written hsign, Text.asciiLower]

/-- A sign is taken for a digit, although the text is not one of six groups of digits. -/
theorem sign_read_as_digit : ofText "+f:00:00:00:00:00" = .ok ⟨0x0f, 0, 0, 0, 0, 0⟩ ∧
    ¬ Spelled IsHexDigit "+f:00:00:00:00:00" := by
  refine ⟨by cbv, ?_⟩
  rintro ⟨parts, hlen, hjoin, hgroups⟩
  have hsplit := splitOn_of_groups hlen hjoin fun part hp => by
    obtain ⟨hi, lo, he, hhi, hlo⟩ := hgroups part hp
    exact ⟨hi, lo, he, .inr hhi, hlo⟩
  obtain ⟨hi, lo, he, hhi, -⟩ := hgroups ['+', 'f'] (by rw [← hsplit]; decide)
  cases he
  exact absurd hhi (by decide)

end Snooping.Mac
