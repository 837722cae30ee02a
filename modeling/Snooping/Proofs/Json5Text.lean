import Mathlib.Tactic.SplitIfs
import Snooping.Json5.Reader
import Snooping.Proofs.JsonText

/-!
Indented JSON text is JSON5 text of the same value, unless a text in it holds one of the two line
separators that JSON writes as they are and JSON5 does not take.
-/
namespace Snooping

/-- The two line ends that are no controls, which JSON does not escape. -/
def Json5.isSeparator (c : Char) : Bool := c = '\u2028' || c = '\u2029'

def Json5.Sign.ofNegative (negative : Bool) : Json5.Sign := if negative then .minus else .none

namespace Json

/-- The text as JSON5 takes it. -/
def Text.toJson5? (s : Text) : Option Text :=
  if (s.getD "").toList.any Json5.isSeparator then none else some s

def Number.toJson5 : Number → Json5.Number
  | .integer negative n => .decimal (.ofNegative negative) n 0 true
  | .decimal negative m e => .decimal (.ofNegative negative) m e false

mutual

/-- The value as JSON5 takes it: names are quoted, and integers are whole. -/
def toJson5? : Json → Option Json5
  | .null => some .null
  | .bool b => some (.bool b)
  | .number n => some (.number n.toJson5)
  | .string s => s.toJson5?.map .string
  | .array items => (itemsToJson5? items).map .array
  | .object members => (membersToJson5? members).map .object

def itemsToJson5? : List Json → Option (List Json5)
  | [] => some []
  | j :: rest => do return (← toJson5? j) :: (← itemsToJson5? rest)

def membersToJson5? : List (Text × Json) → Option (List (Json5.Name × Json5))
  | [] => some []
  | (k, j) :: rest => do
    return (⟨← k.toJson5?, true⟩, ← toJson5? j) :: (← membersToJson5? rest)

end

end Json

namespace Json5

open Json (Piece escape escapeChar writeText writeNumber newline writePretty prettyItems
  prettyMembers)

section Skipping

theorem skip_solid {c : Char} (hb : isBlank c = false) (hc : c ≠ '/') (cs : List Char) :
    skip (c :: cs) = some (c :: cs) := by
  simp [skip, skipFrom, hb, hc]

theorem skip_space (cs : List Char) : skip (' ' :: cs) = skip cs := by
  have hb : isBlank ' ' = true := by decide
  simp [skip, skipFrom, hb]

theorem skip_newline (level : Nat) (cs : List Char) : skip (newline level ++ cs) = skip cs := by
  have hb : isBlank '\n' = true := by decide
  have hs (n : Nat) : skip (List.replicate n ' ' ++ cs) = skip cs := by
    induction n with
    | zero => rfl
    | succ n ih => rw [List.replicate_succ, List.cons_append, skip_space, ih]
  rw [newline, List.cons_append, ← hs (2 * level)]
  simp [skip, skipFrom, hb]

end Skipping

section Strings

/-- A character that is not escaped begins no escape and does not close the text. -/
theorem readPieces_plain {c : Char} (hq : c ≠ '"') (hb : c ≠ '\\') (cs : List Char) :
    readPieces '"' (c :: cs) =
      if isLineTerminator c then none
      else (readPieces '"' cs).map fun (ps, rest) => (.char c :: ps, rest) := by
  rw [readPieces]
  · cases hr : readPieces '"' cs <;> simp [hq, hb]
  all_goals (intros; exact hb ‹_›)

theorem readPieces_escapeChar {c : Char} (hc : isSeparator c = false) :
    ∃ p : Piece, p.Spells c ∧ ∀ cs, readPieces '"' (escapeChar c ++ cs) =
      (readPieces '"' cs).map fun (ps, rest) => (p :: ps, rest) := by
  unfold escapeChar
  split
  case h_8 _ hq hb _ _ hn hr _ =>
    split_ifs with hx
    · obtain ⟨u, v, w, x, hp, hn⟩ := Json.number?_padded hx
      refine ⟨.unit c.toNat, Piece.unit_spells hx, fun cs => ?_⟩
      rw [hp]
      cases hr : readPieces '"' cs <;> simp [readPieces, hn, hr]
    · have ht : isLineTerminator c = false := by simp_all [isLineTerminator, isSeparator]
      refine ⟨.char c, Piece.char_spells c, fun cs => ?_⟩
      rw [List.singleton_append, readPieces_plain hq hb, ht]
      rfl
  all_goals
    refine ⟨.char _, Piece.char_spells _, fun cs => ?_⟩
    cases hr : readPieces '"' cs <;>
      simp [readPieces, simpleEscape?, hr, isLineTerminator, Char.isDigit]

theorem readPieces_separator {c : Char} (hc : isSeparator c = true) (cs : List Char) :
    readPieces '"' (escapeChar c ++ cs) = none := by
  have hs : c = '\u2028' ∨ c = '\u2029' := by simpa [isSeparator] using hc
  rcases hs with rfl | rfl <;> exact readPieces_plain (by decide) (by decide) cs

/-- A text is read back up to its closing quote, and not at all if a separator stands in it. -/
theorem readPieces_escape (cs rest : List Char) :
    if cs.any isSeparator then readPieces '"' (escape cs ++ '"' :: rest) = none
    else ∃ ps, readPieces '"' (escape cs ++ '"' :: rest) = some (ps, rest) ∧
      ∀ code, Json.joinUnits code ps = some cs := by
  induction cs with
  | nil => exact ⟨[], by simp [escape, readPieces], fun _ => rfl⟩
  | cons c cs ih =>
    have he : escape (c :: cs) ++ '"' :: rest = escapeChar c ++ (escape cs ++ '"' :: rest) := by
      simp [escape]
    rw [List.any_cons, he]
    cases hc : isSeparator c with
    | true => exact readPieces_separator hc _
    | false =>
      obtain ⟨p, hp, hr⟩ := readPieces_escapeChar hc
      rw [Bool.false_or, hr]
      split_ifs at ih ⊢ with ha
      · rw [ih]
        rfl
      · obtain ⟨ps, ih, hj⟩ := ih
        refine ⟨p :: ps, by rw [ih]; rfl, fun code => by rw [hp, hj]; rfl⟩

theorem readPieces_writeText (k : Json.Text) : ∃ cs, ∀ rest,
    writeText k ++ rest = '"' :: (cs ++ rest) ∧
      (readPieces '"' (cs ++ rest)).map (fun (ps, rest) => (textOfPieces ps, rest)) =
        k.toJson5?.map fun k => (k, rest) := by
  cases k with
  | none =>
    -- Half of a pair of surrogates is read back as such.
    have hn : Text.Hex.number? ['d', '8', '0', '0'] = some 0xd800 := by decide
    have ht : textOfPieces [.unit 0xd800] = none := by decide
    refine ⟨['\\', 'u', 'd', '8', '0', '0', '"'], fun rest => ⟨rfl, ?_⟩⟩
    simp [readPieces, hn, ht, Json.Text.toJson5?]
  | some s =>
    refine ⟨escape s.toList ++ ['"'], fun rest => ⟨by simp [writeText], ?_⟩⟩
    have h := readPieces_escape s.toList rest
    rw [List.append_assoc, List.singleton_append, Json.Text.toJson5?, Option.getD_some]
    split_ifs at h ⊢
    · rw [h]
      rfl
    · obtain ⟨ps, hr, hj⟩ := h
      simp [hr, textOfPieces, hj]

end Strings

/-- What may stand after a value in an indented text. -/
def Closes (rest : List Char) : Prop := ∀ c ∈ rest.head?, c = ',' ∨ c = '\n'

theorem closes_prettyItems (level : Nat) (items : List Json) (rest : List Char) :
    Closes (prettyItems level items ++ rest) := by
  cases items <;> simp [Closes, prettyItems, newline]

theorem closes_prettyMembers (level : Nat) (members : List (Json.Text × Json))
    (rest : List Char) : Closes (prettyMembers level members ++ rest) := by
  rcases members with _ | ⟨⟨k, j⟩, members⟩ <;> simp [Closes, prettyMembers, newline]

section Numbers

variable {rest : List Char}

theorem Closes.noDigit (hr : Closes rest) : rest.takeWhile Char.isDigit = [] := by
  rcases rest with _ | ⟨c, rest⟩
  · rfl
  · rcases hr c rfl with rfl | rfl <;> rfl

theorem Closes.noExponent (hr : Closes rest) : Json.readExponent rest = some (none, rest) := by
  rcases rest with _ | ⟨c, rest⟩
  · rfl
  · rcases hr c rfl with rfl | rfl <;> rfl

/-- What follows the digits of a number without a fraction: an exponent, if any, and the rest. -/
structure IsTail (tail : List Char) (e : Option Int) (rest : List Char) : Prop where
  noDigit : tail.takeWhile Char.isDigit = []
  noPoint : tail.head? ≠ some '.'
  noHex : tail.head? ≠ some 'x' ∧ tail.head? ≠ some 'X'
  exponent : Json.readExponent tail = some (e, rest)

theorem isTail_of_closes (hr : Closes rest) : IsTail rest none rest := by
  refine ⟨hr.noDigit, ?_, ?_, hr.noExponent⟩
  all_goals
    rcases rest with _ | ⟨c, rest⟩
    · simp
    · rcases hr c rfl with rfl | rfl <;> simp

theorem ne_sign_of_isDigit {d : Char} (hd : d.isDigit) : d ≠ '+' ∧ d ≠ '-' := by
  constructor
  all_goals
    rintro rfl
    exact absurd hd (by decide)

theorem isTail_exponent (n : Nat) (hr : Closes rest) :
    IsTail ('e' :: Nat.toDigits 10 n ++ rest) (some n) rest := by
  have hv := Text.Decimal.ofDigitChars_toDigits n
  have h := Json.readDigits_toDigits n hr.noDigit
  obtain ⟨d, ds, hd, hc⟩ := Json.toDigits_cons n
  refine ⟨rfl, by simp, by simp, ?_⟩
  obtain ⟨hp, hm⟩ := ne_sign_of_isDigit hc
  rw [hd] at h hv
  simp only [List.cons_append] at h
  simp [hd, Json.readExponent, hp, hm, h, hv]

theorem isTail_negativeExponent (n : Nat) (hr : Closes rest) :
    IsTail ('e' :: '-' :: Nat.toDigits 10 n ++ rest) (some (-n)) rest := by
  have hv := Text.Decimal.ofDigitChars_toDigits n
  have h := Json.readDigits_toDigits n hr.noDigit
  refine ⟨rfl, by simp, by simp, ?_⟩
  simp [Json.readExponent, h, hv]

theorem readDecimal_toDigits (sign : Sign) (n : Nat) {tail : List Char} {e : Option Int}
    (ht : IsTail tail e rest) : readDecimal sign (Nat.toDigits 10 n ++ tail) =
      some (.decimal sign n (e.getD 0) e.isNone, rest) := by
  have hz := Text.Decimal.no_leading_zero n
  have hv := Text.Decimal.ofDigitChars_toDigits n
  have hp (fs : List Char) : tail ≠ '.' :: fs := by
    rintro rfl
    exact ht.noPoint rfl
  simp [readDecimal, Text.Decimal.takeWhile_toDigits_append n ht.noDigit,
    Text.Decimal.dropWhile_toDigits_append n ht.noDigit, hz, ht.exponent, hv,
    Nat.toDigits_ne_nil]

theorem readMagnitude_toDigits (sign : Sign) (n : Nat) {tail : List Char} {e : Option Int}
    (ht : IsTail tail e rest) : readMagnitude sign (Nat.toDigits 10 n ++ tail) =
      some (.decimal sign n (e.getD 0) e.isNone, rest) := by
  rw [← readDecimal_toDigits sign n ht]
  obtain ⟨d, ds, hd, hc⟩ := Json.toDigits_cons n
  rw [hd, List.cons_append]
  unfold readMagnitude
  split
  case h_1 h | h_2 h =>
    obtain ⟨rfl, -⟩ := List.cons.inj h
    exact absurd hc (by decide)
  case h_3 x cs h =>
    -- A zero in front is the whole number, so that its tail comes next.
    obtain ⟨rfl, hs⟩ := List.cons.inj h
    obtain rfl := Text.Decimal.eq_zero_of_head?_toDigits (n := n) (by rw [hd]; rfl)
    obtain ⟨-, rfl⟩ := List.cons.inj hd
    obtain rfl : tail = x :: cs := hs
    have hx := ht.noHex
    simp only [List.head?_cons, ne_eq, Option.some.injEq] at hx
    simp [hx]
  case h_4 => rfl

theorem readNumber_writeSign (negative : Bool) {d : Char} (hd : d.isDigit) (cs : List Char) :
    readNumber (Json.writeSign negative ++ d :: cs) =
      readMagnitude (.ofNegative negative) (d :: cs) := by
  cases negative with
  | true => rfl
  | false =>
    obtain ⟨hp, hm⟩ := ne_sign_of_isDigit hd
    simp [Json.writeSign, readNumber, hp, hm, Sign.ofNegative]

theorem readNumber_writeNumber (n : Json.Number) (hr : Closes rest) :
    readNumber (writeNumber n ++ rest) = some (n.toJson5, rest) := by
  have h (negative : Bool) (m : Nat) {tail : List Char} {e : Option Int}
      (ht : IsTail tail e rest) :
      readNumber (Json.writeSign negative ++ (Nat.toDigits 10 m ++ tail)) =
        some (.decimal (.ofNegative negative) m (e.getD 0) e.isNone, rest) := by
    rw [← readMagnitude_toDigits _ m ht]
    obtain ⟨d, ds, hd, hc⟩ := Json.toDigits_cons m
    rw [hd]
    exact readNumber_writeSign negative hc (ds ++ tail)
  match n with
  | .integer negative n =>
    simpa [writeNumber, Json.Number.toJson5] using h negative n (isTail_of_closes hr)
  | .decimal negative m (.ofNat e) =>
    simpa [writeNumber, Json.Number.toJson5] using h negative m (isTail_exponent e hr)
  | .decimal negative m (.negSucc e) =>
    have hn := h negative m (isTail_negativeExponent (e + 1) hr)
    simpa [writeNumber, Json.Number.toJson5, Int.negSucc_eq] using hn

end Numbers

section Values

variable {rest : List Char} {fuel : Nat}

/-- A character that a value may begin with: skipping stops at it, and it closes no list. -/
structure Begins (c : Char) : Prop where
  noBlank : isBlank c = false
  noComment : c ≠ '/'
  noClose : c ≠ ']'

theorem begins_of_sign_or_digit {c : Char} (h : c = '-' ∨ c.isDigit) :
    Begins c ∧ c ≠ '\'' := by
  have hall : ∀ n < 0x80, Char.ofNat n = '-' ∨ (Char.ofNat n).isDigit →
      isBlank (Char.ofNat n) = false ∧ Char.ofNat n ≠ '/' ∧ Char.ofNat n ≠ ']' ∧
        Char.ofNat n ≠ '\'' := by decide
  have hn : c.toNat < 0x80 := by
    rcases h with rfl | h
    · decide
    · exact Nat.lt_of_le_of_lt (Char.isDigit_iff_toNat.mp h).2 (by decide)
  obtain ⟨hb, hc, hl, hq⟩ := hall c.toNat hn (by rwa [Char.ofNat_toNat])
  rw [Char.ofNat_toNat] at hb hc hl hq
  exact ⟨⟨hb, hc, hl⟩, hq⟩

theorem writePretty_cons (level : Nat) (j : Json) :
    ∃ c cs, writePretty level j = c :: cs ∧ Begins c := by
  match j with
  | .null | .bool true | .bool false | .string none | .string (some _) | .array []
  | .array (_ :: _) | .object [] | .object (_ :: _) =>
    exact ⟨_, _, rfl, by decide, by decide, by decide⟩
  | .number n =>
    obtain ⟨c, cs, hw, hc⟩ := Json.writeNumber_cons n
    exact ⟨c, cs, hw, (begins_of_sign_or_digit hc).1⟩

theorem readValue_space (cs : List Char) : readValue fuel (' ' :: cs) = readValue fuel cs := by
  cases fuel <;> simp only [readValue, skip_space]

theorem readValue_writeNumber (n : Json.Number) (hr : Closes rest) :
    readValue (fuel + 1) (writeNumber n ++ rest) = some (.number n.toJson5, rest) := by
  have hv := readNumber_writeNumber n hr
  obtain ⟨c, cs, hw, hc⟩ := Json.writeNumber_cons n
  have ho := Json.ne_of_sign_or_digit hc
  simp only [List.mem_cons, List.not_mem_nil, or_false, not_or] at ho
  obtain ⟨hb, hq⟩ := begins_of_sign_or_digit hc
  rw [hw, List.cons_append] at hv ⊢
  rw [readValue, skip_solid hb.noBlank hb.noComment]
  simp only [Option.bind_eq_bind, Option.bind_some]
  split
  case h_8 =>
    rw [hv]
    rfl
  all_goals simp_all

theorem readName_writeText (k : Json.Text) :
    readName (writeText k ++ rest) = k.toJson5?.map fun k => (⟨k, true⟩, rest) := by
  obtain ⟨cs, h⟩ := readPieces_writeText k
  obtain ⟨hw, hp⟩ := h rest
  have hr : readName ('"' :: (cs ++ rest)) =
      ((readPieces '"' (cs ++ rest)).map fun (ps, rest) => (textOfPieces ps, rest)).map
        fun r => (⟨r.1, true⟩, r.2) := by
    cases hp : readPieces '"' (cs ++ rest) <;> simp [readName, hp]
  rw [hw, hr, hp, Option.map_map]
  rfl

theorem readValue_writeText (k : Json.Text) : readValue (fuel + 1) (writeText k ++ rest) =
    k.toJson5?.map fun k => (.string k, rest) := by
  obtain ⟨cs, h⟩ := readPieces_writeText k
  obtain ⟨hw, hp⟩ := h rest
  have hr : readValue (fuel + 1) ('"' :: (cs ++ rest)) =
      ((readPieces '"' (cs ++ rest)).map fun (ps, rest) => (textOfPieces ps, rest)).map
        fun r => (.string r.1, r.2) := by
    cases hp : readPieces '"' (cs ++ rest) <;>
      simp [readValue, skip_solid (c := '"') rfl, hp]
  rw [hw, hr, hp, Option.map_map]
  rfl

theorem skip_writeText (k : Json.Text) (cs : List Char) :
    skip (writeText k ++ cs) = some (writeText k ++ cs) := by
  cases k <;> exact skip_solid rfl (by decide) _

theorem skip_writePretty (level : Nat) (j : Json) (cs : List Char) :
    skip (writePretty level j ++ cs) = some (writePretty level j ++ cs) := by
  obtain ⟨c, cs', hw, hc⟩ := writePretty_cons level j
  rw [hw]
  exact skip_solid hc.noBlank hc.noComment _

theorem readValue_array (level : Nat) (j : Json) (cs : List Char) :
    readValue (fuel + 1) ('[' :: (newline level ++ (writePretty level j ++ cs))) =
      (readItems fuel (writePretty level j ++ cs)).map
        fun (items, rest) => (.array items, rest) := by
  have hs := skip_writePretty level j cs
  obtain ⟨c, cs', hw, hc⟩ := writePretty_cons level j
  rw [hw, List.cons_append] at hs ⊢
  cases hr : readItems fuel (c :: (cs' ++ cs)) <;>
    simp [readValue, skip_solid (c := '[') rfl, skip_newline, hs, hc.noClose, hr]

theorem readValue_object (level : Nat) (k : Json.Text) (cs : List Char) :
    readValue (fuel + 1) ('\x7b' :: (newline level ++ (writeText k ++ cs))) =
      (readMembers fuel (writeText k ++ cs)).map
        fun (members, rest) => (.object members, rest) := by
  have hs := skip_writeText k cs
  obtain ⟨cs', h⟩ := readPieces_writeText k
  rw [(h cs).1] at hs ⊢
  cases hr : readMembers fuel ('"' :: (cs' ++ cs)) <;>
    simp [readValue, skip_solid (c := '\x7b') rfl, skip_newline, hs, hr]

theorem readItems_last {cs : List Char} {v : Json5} (level : Nat)
    (h : readValue fuel cs = some (v, newline level ++ ']' :: rest)) :
    readItems (fuel + 1) cs = some ([v], rest) := by
  simp [readItems, h, skip_newline, skip_solid (c := ']') rfl]

theorem readItems_next {cs : List Char} {v : Json5} (level : Nat) (j : Json) (tail : List Char)
    (h : readValue fuel cs = some (v, ',' :: (newline level ++ (writePretty level j ++ tail)))) :
    readItems (fuel + 1) cs =
      (readItems fuel (writePretty level j ++ tail)).map fun (items, rest) =>
        (v :: items, rest) := by
  have hs := skip_writePretty level j tail
  obtain ⟨c, cs', hw, hc⟩ := writePretty_cons level j
  rw [hw, List.cons_append] at h hs ⊢
  cases hr : readItems fuel (c :: (cs' ++ tail)) <;>
    simp [readItems, h, skip_solid (c := ',') rfl, skip_newline, hs, hc.noClose, hr]

section Members

variable {k : Json.Text} {cs : List Char}

theorem readMembers_none
    (h : k.toJson5? = none ∨ readValue fuel cs = none) :
    readMembers (fuel + 1) (writeText k ++ ':' :: ' ' :: cs) = none := by
  rw [readMembers, skip_writeText]
  simp only [Option.bind_eq_bind, Option.bind_some, readName_writeText]
  cases hk : k.toJson5? with
  | none => rfl
  | some k => simp_all [skip_solid (c := ':') rfl, readValue_space]

theorem readMembers_last {v : Json5} {l : Json.Text} (level : Nat) (hk : k.toJson5? = some l)
    (h : readValue fuel cs = some (v, newline level ++ '\x7d' :: rest)) :
    readMembers (fuel + 1) (writeText k ++ ':' :: ' ' :: cs) = some ([(⟨l, true⟩, v)], rest) := by
  rw [readMembers, skip_writeText]
  simp [readName_writeText, hk, skip_solid (c := ':') rfl, readValue_space, h, skip_newline,
    skip_solid (c := '\x7d') rfl]

theorem readMembers_next {v : Json5} {l : Json.Text} (level : Nat) (m : Json.Text)
    (tail : List Char) (hk : k.toJson5? = some l)
    (h : readValue fuel cs = some (v, ',' :: (newline level ++ (writeText m ++ tail)))) :
    readMembers (fuel + 1) (writeText k ++ ':' :: ' ' :: cs) =
      (readMembers fuel (writeText m ++ tail)).map fun (members, rest) =>
        ((⟨l, true⟩, v) :: members, rest) := by
  have hs := skip_writeText m tail
  obtain ⟨cs', hw⟩ := readPieces_writeText m
  rw [(hw tail).1] at h hs ⊢
  rw [readMembers, skip_writeText]
  cases hr : readMembers fuel ('"' :: (cs' ++ tail)) <;>
    simp [readName_writeText, hk, skip_solid (c := ':') rfl, readValue_space, h,
      skip_solid (c := ',') rfl, skip_newline, hs, hr]

end Members

/-- One unit of fuel for each character is enough. -/
structure IsEnough (fuel : Nat) : Prop where
  value : ∀ j level rest, (writePretty level j).length ≤ fuel → Closes rest →
    readValue fuel (writePretty level j ++ rest) = j.toJson5?.map fun j => (j, rest)
  items : ∀ j items level rest,
    (writePretty (level + 1) j ++ prettyItems level items).length ≤ fuel →
    readItems fuel (writePretty (level + 1) j ++ (prettyItems level items ++ rest)) =
      (Json.itemsToJson5? (j :: items)).map fun items => (items, rest)
  members : ∀ k j members level rest,
    (writeText k ++ ':' :: ' ' :: writePretty (level + 1) j ++
      prettyMembers level members).length ≤ fuel →
    readMembers fuel (writeText k ++ ':' :: ' ' :: (writePretty (level + 1) j ++
      (prettyMembers level members ++ rest))) =
      (Json.membersToJson5? ((k, j) :: members)).map fun members => (members, rest)

theorem isEnough_zero : IsEnough 0 where
  value j level rest hf _ := by
    obtain ⟨c, cs, hw, -⟩ := writePretty_cons level j
    simp [hw] at hf
  items j items level rest hf := by
    obtain ⟨c, cs, hw, -⟩ := writePretty_cons (level + 1) j
    simp [hw] at hf
  members k j members level rest hf := by
    simp at hf

theorem IsEnough.value_succ (ih : IsEnough fuel) (j : Json) (level : Nat) (rest : List Char)
    (hf : (writePretty level j).length ≤ fuel + 1) (hr : Closes rest) :
    readValue (fuel + 1) (writePretty level j ++ rest) = j.toJson5?.map fun j => (j, rest) := by
  match j with
  | .null | .bool true | .bool false | .array [] | .object [] => rfl
  | .number n => exact readValue_writeNumber n hr
  | .string s =>
    simpa [writePretty, Json.toJson5?, Function.comp_def] using readValue_writeText s
  | .array (j :: items) =>
    have h := ih.items j items level rest (by simp [writePretty, newline] at hf ⊢; omega)
    simp [writePretty, readValue_array, h, Json.toJson5?, Function.comp_def]
  | .object ((k, j) :: members) =>
    have h := ih.members k j members level rest (by simp [writePretty, newline] at hf ⊢; omega)
    simp [writePretty, readValue_object, h, Json.toJson5?, Function.comp_def]

theorem IsEnough.items_succ (ih : IsEnough fuel) (j : Json) (items : List Json) (level : Nat)
    (rest : List Char)
    (hf : (writePretty (level + 1) j ++ prettyItems level items).length ≤ fuel + 1) :
    readItems (fuel + 1) (writePretty (level + 1) j ++ (prettyItems level items ++ rest)) =
      (Json.itemsToJson5? (j :: items)).map fun items => (items, rest) := by
  -- What stands behind the value takes a character, and so pays for the round.
  have hl : 0 < (prettyItems level items).length := by
    cases items <;> simp [prettyItems, newline]
  rw [List.length_append] at hf
  have hv := ih.value j (level + 1) (prettyItems level items ++ rest) (by omega)
    (closes_prettyItems level items rest)
  rw [Json.itemsToJson5?]
  cases hj : j.toJson5? with
  | none =>
    rw [hj] at hv
    simp [readItems, hv]
  | some v =>
    rw [hj, Option.map_some] at hv
    match items with
    | [] =>
      rw [prettyItems, List.append_assoc] at hv
      rw [prettyItems, List.append_assoc]
      exact readItems_last level hv
    | i :: items =>
      have h := ih.items i items level rest (by simp [prettyItems, newline] at hf ⊢; omega)
      simp only [prettyItems, List.append_assoc, List.cons_append] at hv ⊢
      rw [readItems_next (level + 1) i _ hv, h]
      cases Json.itemsToJson5? (i :: items) <;> rfl

theorem IsEnough.members_succ (ih : IsEnough fuel) (k : Json.Text) (j : Json)
    (members : List (Json.Text × Json)) (level : Nat) (rest : List Char)
    (hf : (writeText k ++ ':' :: ' ' :: writePretty (level + 1) j ++
      prettyMembers level members).length ≤ fuel + 1) :
    readMembers (fuel + 1) (writeText k ++ ':' :: ' ' :: (writePretty (level + 1) j ++
      (prettyMembers level members ++ rest))) =
      (Json.membersToJson5? ((k, j) :: members)).map fun members => (members, rest) := by
  have hl : 0 < (prettyMembers level members).length := by
    cases members <;> simp [prettyMembers, newline]
  simp only [List.length_append, List.length_cons] at hf
  have hv := ih.value j (level + 1) (prettyMembers level members ++ rest) (by omega)
    (closes_prettyMembers level members rest)
  rw [Json.membersToJson5?]
  cases hk : k.toJson5? with
  | none => exact readMembers_none (.inl hk)
  | some l =>
    cases hj : j.toJson5? with
    | none =>
      rw [hj] at hv
      exact readMembers_none (.inr hv)
    | some v =>
      rw [hj, Option.map_some] at hv
      match members with
      | [] =>
        rw [prettyMembers, List.append_assoc] at hv
        rw [prettyMembers, List.append_assoc]
        exact readMembers_last level hk hv
      | (m, i) :: members =>
        have h := ih.members m i members level rest
          (by simp [prettyMembers, newline] at hf ⊢; omega)
        simp only [prettyMembers, List.append_assoc, List.cons_append] at hv ⊢
        rw [readMembers_next (level + 1) m _ hk hv, h]
        cases Json.membersToJson5? ((m, i) :: members) <;> rfl

theorem isEnough (fuel : Nat) : IsEnough fuel := by
  induction fuel with
  | zero => exact isEnough_zero
  | succ fuel ih => exact ⟨ih.value_succ, ih.items_succ, ih.members_succ⟩

/-- Indented text is read as the value it was written for, or not at all. -/
theorem ofText?_pretty (j : Json) : ofText? j.pretty = j.toJson5? := by
  have h := (isEnough (2 * (writePretty 0 j).length + 2)).value j 0 [] (by omega)
    (by simp [Closes])
  rw [List.append_nil] at h
  rw [ofText?, Json.pretty, String.toList_ofList, ofChars?, h]
  cases j.toJson5? <;> rfl

end Values

end Json5
end Snooping
