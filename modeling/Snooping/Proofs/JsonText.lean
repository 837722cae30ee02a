import Snooping.Json.Reader
import Snooping.Json.Writer

/-!
JSON text is read back as the value it was written for, as far as that value is exact: texts are
whole and numbers are integers of 64 bits.
-/
namespace Snooping.Json

def Number.IsExact : Number → Prop
  | .integer _ n => n < UInt64.size
  | .decimal _ _ _ => False

mutual

def IsExact : Json → Prop
  | .null | .bool _ => True
  | .number n => n.IsExact
  | .string s => s.isSome
  | .array items => ItemsExact items
  | .object members => MembersExact members

def ItemsExact : List Json → Prop
  | [] => True
  | j :: rest => IsExact j ∧ ItemsExact rest

def MembersExact : List (Text × Json) → Prop
  | [] => True
  | (k, j) :: rest => k.isSome ∧ IsExact j ∧ MembersExact rest

end

section Strings

variable {c : Char}

/-- The piece stands for the character, whatever comes after it. -/
def Piece.Spells (p : Piece) (c : Char) : Prop :=
  ∀ code ps, joinUnits code (p :: ps) = (joinUnits code ps).map (c :: ·)

theorem Piece.char_spells (c : Char) : (Piece.char c).Spells c := by
  intro code ps
  rw [joinUnits]

/-- A control is no surrogate, so it waits for no other half. -/
theorem Piece.unit_spells (h : c.toNat < 0x20) : (Piece.unit c.toNat).Spells c := by
  have hh : isHighSurrogate c.toNat = false := by simp [isHighSurrogate]; omega
  have hl : isLowSurrogate c.toNat = false := by simp [isLowSurrogate]; omega
  intro code ps
  rcases ps with _ | ⟨p | p, ps⟩ <;> simp [joinUnits, hh, hl, Char.ofNat_toNat]

theorem number?_padded {n : Nat} (h : n < 0x20) :
    ∃ a b c d, Text.Hex.padded 4 n = [a, b, c, d] ∧ Text.Hex.number? [a, b, c, d] = some n := by
  have hall : ∀ n < 0x20,
      (Text.Hex.padded 4 n).length = 4 ∧ Text.Hex.number? (Text.Hex.padded 4 n) = some n := by
    decide
  obtain ⟨hl, hn⟩ := hall n h
  match hp : Text.Hex.padded 4 n, hl with
  | [a, b, c, d], _ => exact ⟨a, b, c, d, rfl, hp ▸ hn⟩

theorem readPieces_escapeChar (c : Char) : ∃ p : Piece, p.Spells c ∧ ∀ cs,
    readPieces (escapeChar c ++ cs) = (readPieces cs).map fun (ps, rest) => (p :: ps, rest) := by
  -- Seven characters have an escape by letter; the last case is all others.
  unfold escapeChar
  split
  case h_8 _ hq hb _ _ _ _ _ =>
    split
    · next hc =>
      obtain ⟨u, v, w, x, hp, hn⟩ := number?_padded hc
      refine ⟨.unit c.toNat, Piece.unit_spells hc, fun cs => ?_⟩
      rw [hp]
      cases hr : readPieces cs <;> simp [readPieces, hn, hr]
    · next hc =>
      refine ⟨.char c, Piece.char_spells c, fun cs => ?_⟩
      rw [List.singleton_append, readPieces]
      · rw [if_neg (by simp [hc, show c ≠ '\\' from hb])]
        cases readPieces cs <;> rfl
      · exact hq
      all_goals (intros; exact hb ‹_›)
  all_goals
    refine ⟨.char _, Piece.char_spells _, fun cs => ?_⟩
    cases hr : readPieces cs <;> simp [readPieces, simpleEscape?, hr]

theorem readPieces_escape (cs rest : List Char) : ∃ ps,
    readPieces (escape cs ++ '"' :: rest) = some (ps, rest) ∧
      ∀ code, joinUnits code ps = some cs := by
  induction cs with
  | nil => exact ⟨[], rfl, fun _ => rfl⟩
  | cons c cs ih =>
    obtain ⟨ps, hr, hj⟩ := ih
    obtain ⟨p, hp, hc⟩ := readPieces_escapeChar c
    refine ⟨p :: ps, ?_, fun code => by rw [hp, hj]; rfl⟩
    rw [escape, List.flatMap_cons, List.append_assoc, hc]
    rw [escape] at hr
    rw [hr]
    rfl

theorem readText_escape (cs rest : List Char) :
    readText (escape cs ++ '"' :: rest) = some (some (String.ofList cs), rest) := by
  obtain ⟨ps, hr, hj⟩ := readPieces_escape cs rest
  simp [readText, hr, textOfPieces, hj]

end Strings

/-- What may stand after a value in a text: it continues no number, and begins with no blank. -/
structure Closes (rest : List Char) : Prop where
  noDigit : rest.takeWhile Char.isDigit = []
  noFraction : readFraction rest = some ([], rest)
  noExponent : readExponent rest = some (none, rest)
  noBlank : skipBlank rest = rest

theorem closes_nil : Closes [] := ⟨rfl, rfl, rfl, rfl⟩

theorem closes_writeItems (items : List Json) (rest : List Char) :
    Closes (writeItems items ++ rest) := by
  cases items <;> exact ⟨rfl, rfl, rfl, rfl⟩

theorem closes_writeMembers (members : List (Text × Json)) (rest : List Char) :
    Closes (writeMembers members ++ rest) := by
  rcases members with _ | ⟨⟨k, j⟩, members⟩ <;> exact ⟨rfl, rfl, rfl, rfl⟩

section Numbers

variable {rest : List Char}

theorem le_ofDigitChars (ds : List Char) (n : Nat) : n ≤ Nat.ofDigitChars 10 ds n := by
  induction ds generalizing n with
  | nil => exact Nat.le_refl n
  | cons d ds ih =>
    have := ih (10 * n + (d.toNat - '0'.toNat))
    rw [Nat.ofDigitChars_cons]
    omega

theorem appendDigits_of_lt {ds : List Char} {n : Nat}
    (h : Nat.ofDigitChars 10 ds n < UInt64.size) :
    appendDigits n ds = (Nat.ofDigitChars 10 ds n, 0) := by
  induction ds generalizing n with
  | nil => rfl
  | cons d ds ih =>
    rw [Nat.ofDigitChars_cons] at h ⊢
    have hm := le_ofDigitChars ds (10 * n + (d.toNat - '0'.toNat))
    simp only [appendDigits, Nat.ofDigitChars_cons, Nat.ofDigitChars_nil]
    rw [if_pos (Nat.lt_of_le_of_lt hm h), ih h]

theorem readDigits_toDigits (n : Nat) (hr : rest.takeWhile Char.isDigit = []) :
    readDigits (Nat.toDigits 10 n ++ rest) = some (Nat.toDigits 10 n, rest) := by
  simp [readDigits, Text.Decimal.takeWhile_toDigits_append n hr,
    Text.Decimal.dropWhile_toDigits_append n hr, Nat.toDigits_ne_nil]

theorem readMagnitude_toDigits (negative : Bool) {n : Nat} (hn : n < UInt64.size)
    (hr : Closes rest) :
    readMagnitude negative (Nat.toDigits 10 n ++ rest) = some (.integer negative n, rest) := by
  have hz := Text.Decimal.no_leading_zero n
  have hv := Text.Decimal.ofDigitChars_toDigits n
  have ha : appendDigits 0 (Nat.toDigits 10 n) = (Nat.ofDigitChars 10 (Nat.toDigits 10 n) 0, 0) :=
    appendDigits_of_lt (hv.symm ▸ hn)
  rw [hv] at ha
  simp [readMagnitude, readDigits_toDigits n hr.noDigit, hz, hr.noFraction, hr.noExponent, ha]

theorem toDigits_cons (n : Nat) : ∃ d ds, Nat.toDigits 10 n = d :: ds ∧ d.isDigit = true := by
  cases hd : Nat.toDigits 10 n with
  | nil => exact absurd hd Nat.toDigits_ne_nil
  | cons d ds =>
    exact ⟨d, ds, rfl, Text.Decimal.isDigit_of_mem_toDigits (hd ▸ List.mem_cons_self)⟩

theorem writeNumber_cons (n : Number) :
    ∃ c cs, writeNumber n = c :: cs ∧ (c = '-' ∨ c.isDigit) := by
  match n with
  | .integer true _ | .decimal true _ (.ofNat _) | .decimal true _ (.negSucc _) =>
    exact ⟨'-', _, rfl, .inl rfl⟩
  | .integer false m | .decimal false m (.ofNat _) | .decimal false m (.negSucc _) =>
    obtain ⟨d, ds, hd, hc⟩ := toDigits_cons m
    exact ⟨d, _, by rw [writeNumber, hd]; rfl, .inr hc⟩

theorem readNumber_writeNumber {n : Number} (hn : n.IsExact) (hr : Closes rest) :
    readNumber (writeNumber n ++ rest) = some (n, rest) := by
  match n, hn with
  | .integer true n, hn => exact readMagnitude_toDigits true hn hr
  | .integer false n, hn =>
    have h := readMagnitude_toDigits false hn hr
    obtain ⟨d, ds, hd, hc⟩ := toDigits_cons n
    have hw : writeNumber (.integer false n) = d :: ds := hd
    rw [hw, List.cons_append, readNumber]
    · rwa [hd] at h
    · rintro _ ⟨⟩
      exact absurd hc (by decide)

/-- A sign or a digit is no blank, begins no other kind of value and ends none. -/
theorem ne_of_sign_or_digit {c : Char} (h : c = '-' ∨ c.isDigit) :
    c ∉ [' ', '\t', '\n', '\r', 'n', 't', 'f', '"', '[', ']', '\x7b'] := by
  intro hm
  simp only [List.mem_cons, List.not_mem_nil, or_false] at hm
  rcases hm with rfl | rfl | rfl | rfl | rfl | rfl | rfl | rfl | rfl | rfl | rfl <;>
    exact absurd h (by decide)

theorem readValue_writeNumber {n : Number} (hn : n.IsExact) (hr : Closes rest) (fuel : Nat) :
    readValue (fuel + 1) (writeNumber n ++ rest) = some (.number n, rest) := by
  have hv := readNumber_writeNumber hn hr
  obtain ⟨c, cs, hw, hc⟩ := writeNumber_cons n
  have ho := ne_of_sign_or_digit hc
  simp only [List.mem_cons, List.not_mem_nil, or_false, not_or] at ho
  have hs : skipBlank (c :: cs ++ rest) = c :: cs ++ rest := by
    simp [skipBlank, isBlank, ho]
  rw [hw] at hv ⊢
  rw [readValue, hs]
  split
  case h_7 =>
    rw [hv]
    rfl
  all_goals simp_all

end Numbers

section Values

variable {rest : List Char} {fuel : Nat}

theorem readText_writeText {k : Text} (hk : k.isSome) : ∃ cs, ∀ rest,
    writeText k ++ rest = '"' :: (cs ++ rest) ∧ readText (cs ++ rest) = some (k, rest) := by
  obtain ⟨s, rfl⟩ := Option.isSome_iff_exists.mp hk
  refine ⟨escape s.toList ++ ['"'], fun rest => ⟨by simp [writeText], ?_⟩⟩
  have h := readText_escape s.toList rest
  rw [String.ofList_toList] at h
  simpa using h

/-- No value begins with a blank or with the bracket that closes a list. -/
theorem write_cons {j : Json} (hj : j.IsExact) :
    ∃ c cs, write j = c :: cs ∧ isBlank c = false ∧ c ≠ ']' := by
  match j, hj with
  | .null, _ | .bool true, _ | .bool false, _ | .string (some _), _ | .array [], _
  | .array (_ :: _), _ | .object [], _ | .object (_ :: _), _ =>
    exact ⟨_, _, rfl, by decide, by decide⟩
  | .number n, _ =>
    obtain ⟨c, cs, hw, hc⟩ := writeNumber_cons n
    have ho := ne_of_sign_or_digit hc
    simp only [List.mem_cons, List.not_mem_nil, or_false, not_or] at ho
    exact ⟨c, cs, hw, by simp [isBlank, ho], by simp [ho]⟩

theorem readValue_array {c : Char} {cs : List Char} (hb : isBlank c = false) (hc : c ≠ ']') :
    readValue (fuel + 1) ('[' :: c :: cs) =
      (readItems fuel (c :: cs)).map fun (items, rest) => (.array items, rest) := by
  have hs : skipBlank ('[' :: c :: cs) = '[' :: c :: cs := by simp [skipBlank, isBlank]
  have hs' : skipBlank (c :: cs) = c :: cs := by simp [skipBlank, hb]
  cases hr : readItems fuel (c :: cs) <;> simp [readValue, hs, hs', hc, hr]

theorem readValue_object (cs : List Char) :
    readValue (fuel + 1) ('\x7b' :: '"' :: cs) =
      (readMembers fuel ('"' :: cs)).map fun (members, rest) => (.object members, rest) := by
  have hs : skipBlank ('\x7b' :: '"' :: cs) = '\x7b' :: '"' :: cs := by simp [skipBlank, isBlank]
  have hs' : skipBlank ('"' :: cs) = '"' :: cs := by simp [skipBlank, isBlank]
  cases hr : readMembers fuel ('"' :: cs) <;> simp [readValue, hs, hs', hr]

/-- One unit of fuel for each character is enough. -/
structure IsEnough (fuel : Nat) : Prop where
  value : ∀ (j : Json) rest, j.IsExact → (write j).length ≤ fuel → Closes rest →
    readValue fuel (write j ++ rest) = some (j, rest)
  items : ∀ (j : Json) items rest, j.IsExact → ItemsExact items →
    (write j ++ writeItems items).length ≤ fuel →
    readItems fuel (write j ++ (writeItems items ++ rest)) = some (j :: items, rest)
  members : ∀ k (j : Json) members rest, k.isSome → j.IsExact → MembersExact members →
    (writeText k ++ ':' :: write j ++ writeMembers members).length ≤ fuel →
    readMembers fuel (writeText k ++ ':' :: (write j ++ (writeMembers members ++ rest))) =
      some ((k, j) :: members, rest)

theorem isEnough_zero : IsEnough 0 where
  value j rest hj hf _ := by
    obtain ⟨c, cs, hw, -, -⟩ := write_cons hj
    simp [hw] at hf
  items j items rest hj _ hf := by
    obtain ⟨c, cs, hw, -, -⟩ := write_cons hj
    simp [hw] at hf
  members k j members rest _ _ _ hf := by
    simp at hf

theorem IsEnough.value_succ (ih : IsEnough fuel) (j : Json) (rest : List Char) (hj : j.IsExact)
    (hf : (write j).length ≤ fuel + 1) (hr : Closes rest) :
    readValue (fuel + 1) (write j ++ rest) = some (j, rest) := by
  match j, hj with
  | .null, _ | .bool true, _ | .bool false, _ | .array [], _ | .object [], _ => rfl
  | .number n, hn => exact readValue_writeNumber hn hr fuel
  | .string s, hs =>
    obtain ⟨cs, h⟩ := readText_writeText hs
    obtain ⟨hw, ht⟩ := h rest
    rw [write, hw, readValue]
    simp [skipBlank, isBlank, ht]
  | .array (j :: items), ⟨hj, hi⟩ =>
    have h := ih.items j items rest hj hi (by simpa [write] using hf)
    obtain ⟨c, cs, hw, hb, hc⟩ := write_cons hj
    rw [write, List.cons_append, List.cons_append, List.append_assoc]
    rw [hw, List.cons_append] at h ⊢
    rw [readValue_array hb hc, h]
    rfl
  | .object ((k, j) :: members), ⟨hk, hj, hm⟩ =>
    have h := ih.members k j members rest hk hj hm (by simpa [write] using hf)
    obtain ⟨cs, ht⟩ := readText_writeText hk
    have hw := (ht (':' :: (write j ++ (writeMembers members ++ rest)))).1
    rw [write, List.cons_append, List.cons_append]
    rw [hw] at h
    simp only [List.append_assoc, List.cons_append, hw, readValue_object, h, Option.map_some]

theorem IsEnough.items_succ (ih : IsEnough fuel) (j : Json) (items : List Json)
    (rest : List Char) (hj : j.IsExact) (hi : ItemsExact items)
    (hf : (write j ++ writeItems items).length ≤ fuel + 1) :
    readItems (fuel + 1) (write j ++ (writeItems items ++ rest)) = some (j :: items, rest) := by
  -- What stands behind the value takes a character, and so pays for the round.
  have hl : 0 < (writeItems items).length := by cases items <;> simp [writeItems]
  rw [List.length_append] at hf
  have hr := closes_writeItems items rest
  have hv := ih.value j (writeItems items ++ rest) hj (by omega) hr
  rw [readItems, hv]
  simp only [Option.bind_eq_bind, Option.bind_some, hr.noBlank]
  match items, hi with
  | [], _ => rfl
  | i :: items, ⟨hi, his⟩ =>
    have h := ih.items i items rest hi his (by simp [writeItems] at hf ⊢; omega)
    simp [writeItems, h]

theorem IsEnough.members_succ (ih : IsEnough fuel) (k : Text) (j : Json)
    (members : List (Text × Json)) (rest : List Char) (hk : k.isSome) (hj : j.IsExact)
    (hm : MembersExact members)
    (hf : (writeText k ++ ':' :: write j ++ writeMembers members).length ≤ fuel + 1) :
    readMembers (fuel + 1) (writeText k ++ ':' :: (write j ++ (writeMembers members ++ rest))) =
      some ((k, j) :: members, rest) := by
  have hl : 0 < (writeMembers members).length := by cases members <;> simp [writeMembers]
  simp only [List.length_append, List.length_cons] at hf
  have hr := closes_writeMembers members rest
  have hv := ih.value j (writeMembers members ++ rest) hj (by omega) hr
  obtain ⟨cs, ht⟩ := readText_writeText hk
  obtain ⟨hw, ht⟩ := ht (':' :: (write j ++ (writeMembers members ++ rest)))
  have hs (cs) : skipBlank ('"' :: cs) = '"' :: cs := by simp [skipBlank, isBlank]
  have hs' (cs) : skipBlank (':' :: cs) = ':' :: cs := by simp [skipBlank, isBlank]
  rw [hw, readMembers, hs]
  simp only [Option.bind_eq_bind, ht, Option.bind_some, hs', hv, hr.noBlank]
  match members, hm with
  | [], _ => rfl
  | (l, i) :: members, ⟨hl, hi, hms⟩ =>
    have h := ih.members l i members rest hl hi hms (by simp [writeMembers] at hf ⊢; omega)
    simp [writeMembers, h]

theorem isEnough (fuel : Nat) : IsEnough fuel := by
  induction fuel with
  | zero => exact isEnough_zero
  | succ fuel ih => exact ⟨ih.value_succ, ih.items_succ, ih.members_succ⟩

theorem ofText?_text {j : Json} (hj : j.IsExact) : ofText? j.text = some j := by
  have h := (isEnough (2 * (write j).length + 2)).value j [] hj (by omega) closes_nil
  rw [List.append_nil] at h
  rw [ofText?, text, String.toList_ofList, ofChars?, h]
  rfl

end Values

section Holding

theorem Number.IsExact.isFinite {n : Number} (h : n.IsExact) : n.isFinite = true := by
  match n, h with
  | .integer _ n, h =>
    have hb : 2 * UInt64.size < Text.doubleOverflow := by decide +kernel
    have hn : n < UInt64.size := h
    exact Text.isFiniteProduct_zero (by omega)

mutual

/-- An exact value is held if it is entered no deeper than there is room. -/
theorem isHoldable_iff (room : Nat) (j : Json) (hj : j.IsExact) :
    isHoldable room j = true ↔ j.depth ≤ room := by
  match j, hj with
  | .null, _ | .bool _, _ => simp [isHoldable, depth]
  | .number n, hn => simp [isHoldable, depth, Number.IsExact.isFinite hn]
  | .string s, hs => simp [isHoldable, depth, show s.isSome = true from hs]
  | .array items, hi =>
    have h := allHoldable_iff (room - 1) items hi
    simp [isHoldable, depth, h]
    omega
  | .object members, hm =>
    have h := membersHoldable_iff (room - 1) members hm
    simp [isHoldable, depth, h]
    omega

theorem allHoldable_iff (room : Nat) (items : List Json) (hi : ItemsExact items) :
    allHoldable room items = true ↔ itemsDepth items ≤ room := by
  match items, hi with
  | [], _ => simp [allHoldable, itemsDepth]
  | j :: rest, ⟨hj, hr⟩ =>
    have h := allHoldable_iff room rest hr
    simp only [allHoldable, itemsDepth, Bool.and_eq_true, isHoldable_iff room j hj, h, Nat.max_le]

theorem membersHoldable_iff (room : Nat) (members : List (Text × Json))
    (hm : MembersExact members) :
    membersHoldable room members = true ↔ membersDepth members ≤ room := by
  match members, hm with
  | [], _ => simp [membersHoldable, membersDepth]
  | (k, j) :: rest, ⟨hk, hj, hr⟩ =>
    have h := membersHoldable_iff room rest hr
    have hk : k.isSome = true := hk
    simp only [membersHoldable, membersDepth, hk, Bool.true_and, Bool.and_eq_true,
      isHoldable_iff room j hj, h, Nat.max_le]

end

end Holding

end Snooping.Json
