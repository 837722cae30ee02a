import Mathlib.Data.List.TakeWhile
import Mathlib.Tactic.SplitIfs
import Snooping.Net.SocketAddress
import Snooping.Proofs.Checksum

/-!
The text of a socket address is read back as that address: an IPv4 address, or an IPv6 address
with its longest run of zeros left out, a mapped IPv4 address dotted, and a scope that is not zero.
-/
namespace Snooping

namespace Text.Hex

theorem number?_concat (cs : List Char) (c : Char) :
    number? (cs ++ [c]) = (do return 16 * (← number? cs) + (← digit? c)) := by
  rw [number?, List.foldl_append]
  rfl

theorem digit?_digitChar {n : Nat} (h : n < 16) : digit? (Nat.digitChar n) = some n := by
  have hall : ∀ n < 16, digit? (Nat.digitChar n) = some n := by decide
  exact hall n h

/-- A written number has digits only, and they spell it. -/
theorem number?_toDigits (n : Nat) : number? (Nat.toDigits 16 n) = some n ∧
    ∀ c ∈ Nat.toDigits 16 n, (digit? c).isSome = true := by
  induction n using Nat.strongRecOn with
  | ind n ih =>
    by_cases hn : n < 16
    · rw [Nat.toDigits_of_lt_base hn]
      simp [number?, digit?_digitChar hn]
    · obtain ⟨hv, hd⟩ := ih (n / 16) (by omega)
      have hm : n % 16 < 16 := Nat.mod_lt n (by decide)
      rw [Nat.toDigits_of_base_le (by decide) (by omega)]
      refine ⟨?_, ?_⟩
      · rw [number?_concat, hv, digit?_digitChar hm]
        exact congrArg some (Nat.div_add_mod n 16)
      · intro c hc
        rcases List.mem_append.mp hc with hc | hc
        · exact hd c hc
        · rw [List.mem_singleton.mp hc, digit?_digitChar hm]
          rfl

end Text.Hex

theorem Ipv4.read?_eq_none {cs : List Char} (h : '.' ∉ cs) : read? cs = none := by
  have hd : ∀ rest, '.' ∉ rest → readDot rest = none := by
    rintro (_ | ⟨c, rest⟩) hr
    · rfl
    · have hc : c ≠ '.' := fun he => hr (by simp [he])
      unfold readDot
      split
      · simp_all
      · rfl
  unfold read? readOctet
  cases octet? (cs.takeWhile Char.isDigit) with
  | none => rfl
  | some a =>
    have := hd (cs.dropWhile Char.isDigit) fun hm => h ((List.dropWhile_sublist _).subset hm)
    simp [this]

namespace Ipv6

variable {rest : List Char} {segments : List UInt16}

/-- No group goes on here: the text ends, a scope follows, or zeros are left out. -/
def Stops (rest : List Char) : Prop :=
  ∃ c cs, rest = c :: cs ∧ (c = ']' ∨ c = '%' ∨ c = ':' ∧ cs.head? = some ':')

theorem Stops.takeWhile (h : Stops rest) : rest.takeWhile isHexDigit = [] := by
  obtain ⟨c, cs, rfl, rfl | rfl | ⟨rfl, -⟩⟩ := h <;> rfl

theorem readGroup_toDigits (g : UInt16) (h : rest.takeWhile isHexDigit = []) :
    readGroup (Nat.toDigits 16 g.toNat ++ rest) = some (g, rest) := by
  have hv := (Text.Hex.number?_toDigits g.toNat).1
  have hd : ∀ c ∈ Nat.toDigits 16 g.toNat, isHexDigit c = true :=
    (Text.Hex.number?_toDigits g.toNat).2
  have hl : (Nat.toDigits 16 g.toNat).length ≤ 4 :=
    (Nat.length_toDigits_le_iff (by decide) (by decide)).mpr (UInt16.toNat_lt g)
  have ht : (Nat.toDigits 16 g.toNat ++ rest).takeWhile isHexDigit = Nat.toDigits 16 g.toNat := by
    rw [List.takeWhile_append_of_pos hd, h, List.append_nil]
  have hr : (Nat.toDigits 16 g.toNat ++ rest).dropWhile isHexDigit = rest := by
    rw [List.dropWhile_append_of_pos hd]
    have := List.takeWhile_append_dropWhile (p := isHexDigit) (l := rest)
    rwa [h, List.nil_append] at this
  have hne : Nat.toDigits 16 g.toNat ≠ [] := Nat.toDigits_ne_nil
  simp [readGroup, ht, hr, hv, hne]
  omega

/-- The groups after the first, each behind a colon. -/
def laterGroups (segments : List UInt16) : List Char :=
  segments.flatMap fun s => ':' :: Nat.toDigits 16 s.toNat

theorem groups_cons (s : UInt16) (segments : List UInt16) :
    groups (s :: segments) = Nat.toDigits 16 s.toNat ++ laterGroups segments := by
  induction segments generalizing s with
  | nil => simp [groups, laterGroups, List.intercalate]
  | cons t segments ih =>
    have h := ih t
    simp only [groups, List.map_cons, laterGroups, List.flatMap_cons] at h ⊢
    rw [List.intercalate_cons_cons, h]
    simp

theorem laterGroups_cons (s : UInt16) (segments : List UInt16) :
    laterGroups (s :: segments) = ':' :: (Nat.toDigits 16 s.toNat ++ laterGroups segments) := rfl

theorem takeWhile_laterGroups (segments : List UInt16) (h : rest.takeWhile isHexDigit = []) :
    (laterGroups segments ++ rest).takeWhile isHexDigit = [] := by
  cases segments with
  | nil => exact h
  | cons s segments => rfl

theorem isHexDigit_of_mem {n : Nat} {c : Char} (h : c ∈ Nat.toDigits 16 n) :
    isHexDigit c = true :=
  (Text.Hex.number?_toDigits n).2 c h

theorem mem_laterGroups {c : Char} (h : c ∈ laterGroups segments) :
    c = ':' ∨ isHexDigit c = true := by
  obtain ⟨s, -, hs⟩ := List.mem_flatMap.mp h
  exact (List.mem_cons.mp hs).imp id isHexDigit_of_mem

theorem mem_groups {c : Char} (h : c ∈ groups segments) : c = ':' ∨ isHexDigit c = true := by
  cases segments with
  | nil => cases h
  | cons s segments =>
    rw [groups_cons] at h
    exact (List.mem_append.mp h).elim (fun h => .inr (isHexDigit_of_mem h)) mem_laterGroups

theorem noDot_groups (segments : List UInt16) : '.' ∉ groups segments := fun h =>
  absurd (mem_groups h) (by decide)

theorem readGroups_stop (n : Nat) (first : Bool) (h : Stops rest) :
    readGroups n first rest = ([], false, rest) := by
  cases n with
  | zero => rfl
  | succ n =>
    obtain ⟨c, cs, rfl, hc⟩ := h
    have hnone : Ipv4.read? (c :: cs) = none ∧ readGroup (c :: cs) = none := by
      rcases hc with rfl | rfl | ⟨rfl, -⟩ <;> exact ⟨rfl, rfl⟩
    cases first with
    | true => simp [readGroups, behindColon, hnone]
    | false =>
      rcases hc with rfl | rfl | ⟨rfl, hcs⟩
      · rfl
      · rfl
      · obtain ⟨cs, rfl⟩ := List.head?_eq_some_iff.mp hcs
        have hcolon : Ipv4.read? (':' :: cs) = none ∧ readGroup (':' :: cs) = none := ⟨rfl, rfl⟩
        simp [readGroups, behindColon, hcolon]

/-- A group with what stands behind it, once its colon is taken off. -/
theorem readGroups_body {n : Nat} {first : Bool} {cs : List Char} {s : UInt16}
    (hcs : behindColon first cs = some (Nat.toDigits 16 s.toNat ++ rest))
    (hh : rest.takeWhile isHexDigit = [])
    (hnone : Ipv4.read? (Nat.toDigits 16 s.toNat ++ rest) = none) :
    readGroups (n + 1) first cs =
      (s :: (readGroups n false rest).1, (readGroups n false rest).2) := by
  simp only [readGroups, hcs, hnone, ite_self, readGroup_toDigits s hh]

theorem ipv4_read?_groups (s : UInt16) (segments : List UInt16) (hdot : '.' ∉ rest) :
    Ipv4.read? (Nat.toDigits 16 s.toNat ++ (laterGroups segments ++ rest)) = none := by
  have h := noDot_groups (s :: segments)
  rw [groups_cons, List.mem_append, not_or] at h
  exact Ipv4.read?_eq_none (by simp [h, hdot])

theorem readGroups_later {n : Nat} (hn : segments.length ≤ n) (hs : Stops rest)
    (hdot : '.' ∉ rest) :
    readGroups n false (laterGroups segments ++ rest) = (segments, false, rest) := by
  induction segments generalizing n with
  | nil => exact readGroups_stop n false hs
  | cons s segments ih =>
    obtain ⟨n, rfl⟩ := Nat.exists_eq_succ_of_ne_zero (Nat.ne_zero_of_lt hn)
    have hb : behindColon false
        (':' :: (Nat.toDigits 16 s.toNat ++ (laterGroups segments ++ rest))) =
          some (Nat.toDigits 16 s.toNat ++ (laterGroups segments ++ rest)) := rfl
    rw [laterGroups_cons, List.cons_append, List.append_assoc]
    rw [readGroups_body hb (takeWhile_laterGroups segments hs.takeWhile)
      (ipv4_read?_groups s segments hdot), ih (Nat.le_of_succ_le_succ hn)]

theorem readGroups_groups {n : Nat} (hn : segments.length ≤ n) (hs : Stops rest)
    (hdot : '.' ∉ rest) :
    readGroups n true (groups segments ++ rest) = (segments, false, rest) := by
  cases segments with
  | nil => exact readGroups_stop n true hs
  | cons s segments =>
    obtain ⟨n, rfl⟩ := Nat.exists_eq_succ_of_ne_zero (Nat.ne_zero_of_lt hn)
    rw [groups_cons, List.append_assoc]
    rw [readGroups_body rfl (takeWhile_laterGroups segments hs.takeWhile)
      (ipv4_read?_groups s segments hdot), readGroups_later (Nat.le_of_succ_le_succ hn) hs hdot]

theorem take_zeros (l : List UInt16) : l.take (zeros l) = List.replicate (zeros l) 0 := by
  have ht : l.takeWhile (· = 0) = l.take (zeros l) :=
    List.prefix_iff_eq_take.mp (List.takeWhile_prefix _)
  rw [← ht]
  refine List.eq_replicate_iff.mpr ⟨rfl, fun s hs => ?_⟩
  simpa using List.mem_takeWhile_imp hs

/-- Start and length of a run of zeros inside the segments. -/
def IsZeroRun (segments : List UInt16) (run : Nat × Nat) : Prop :=
  run.1 + run.2 ≤ segments.length ∧
    (segments.drop run.1).take run.2 = List.replicate run.2 0

theorem isZeroRun_longestZeros (segments : List UInt16) :
    IsZeroRun segments (longestZeros segments) := by
  unfold longestZeros
  refine List.foldlRecOn (motive := IsZeroRun segments) _ _ ⟨Nat.zero_le _, rfl⟩
    fun best hbest i hi => ?_
  dsimp only
  split
  · have hl : zeros (segments.drop i) ≤ (segments.drop i).length :=
      (List.takeWhile_sublist _).length_le
    rw [List.length_drop] at hl
    rw [List.mem_range] at hi
    exact ⟨by dsimp only; omega, take_zeros _⟩
  · exact hbest

/-- With the run put back between them, what stands before and behind it are all segments. -/
theorem segments_eq {start n : Nat} (hl : segments.length = 8)
    (hz : IsZeroRun segments (start, n)) :
    segments.take start ++ List.replicate (8 - (segments.take start).length -
      (segments.drop (start + n)).length) 0 ++ segments.drop (start + n) = segments := by
  obtain ⟨hb, hz⟩ := hz
  dsimp only at hb hz
  have hn : 8 - (segments.take start).length - (segments.drop (start + n)).length = n := by
    rw [List.length_take, List.length_drop]
    omega
  rw [hn, ← hz, List.append_assoc, ← List.drop_drop, List.take_append_drop,
    List.take_append_drop]

theorem ofSegments?_segments (ip : Ipv6) : ofSegments? ip.segments = some ip := by
  rw [ofSegments?, dif_pos ip.length_eq]

/-- What follows an address: a bracket or a scope. -/
def Closes (rest : List Char) : Prop := ∃ c cs, rest = c :: cs ∧ (c = ']' ∨ c = '%')

theorem Closes.stops (h : Closes rest) : Stops rest := by
  obtain ⟨c, cs, rfl, hc⟩ := h
  exact ⟨c, cs, rfl, hc.imp_right .inl⟩

theorem read?_compressed (ip : Ipv6) {start n : Nat} (hn : 1 < n)
    (hz : IsZeroRun ip.segments (start, n)) (hr : Closes rest) (hdot : '.' ∉ rest) :
    read? (groups (ip.segments.take start) ++ ':' :: ':' ::
      (groups (ip.segments.drop (start + n)) ++ rest)) = some (ip, rest) := by
  have hl := ip.length_eq
  have hb : start + n ≤ 8 := hl ▸ hz.1
  have hdot' : '.' ∉ groups (ip.segments.drop (start + n)) ++ rest := by
    simp [noDot_groups, hdot]
  have hstops : Stops (':' :: ':' :: (groups (ip.segments.drop (start + n)) ++ rest)) :=
    ⟨':', _, rfl, .inr (.inr ⟨rfl, rfl⟩)⟩
  have hbefore : (ip.segments.take start).length ≤ 8 := by
    rw [List.length_take]
    omega
  have hbehind : (ip.segments.drop (start + n)).length ≤ 7 - (ip.segments.take start).length := by
    rw [List.length_take, List.length_drop]
    omega
  have hhead := readGroups_groups hbefore hstops (by simp [hdot'])
  have htail := readGroups_groups hbehind hr.stops hdot
  have hlen : (ip.segments.take start).length ≠ 8 := by
    rw [List.length_take]
    omega
  simp only [read?, hhead, if_neg hlen, htail, segments_eq hl hz, ofSegments?_segments]
  simp

/-- A dotted address stands for two groups, and nothing is read behind it. -/
theorem readGroups_dotted {n : Nat} {cs : List Char} {ip : Ipv4}
    (h : Ipv4.read? cs = some (ip, rest)) : readGroups (n + 2) false (':' :: cs) =
      ([be16 ip.a ip.b, be16 ip.c ip.d], true, rest) := by
  rw [readGroups, behindColon]
  simp [h]

/-- The last two groups of a mapped address are read as the four octets that they hold. -/
theorem read?_mapped (ip : Ipv6) {hi lo : UInt16}
    (hs : ip.segments = [0, 0, 0, 0, 0, 0xffff, hi, lo]) (hr : Closes rest) :
    read? ("::ffff:".toList ++
      Ipv4.chars ⟨(hi >>> 8).toUInt8, hi.toUInt8, (lo >>> 8).toUInt8, lo.toUInt8⟩ ++ rest) =
        some (ip, rest) := by
  have hd : rest.takeWhile Char.isDigit = [] := by
    obtain ⟨c, cs, rfl, rfl | rfl⟩ := hr <;> rfl
  have h4 := Ipv4.read?_chars_append
    ⟨(hi >>> 8).toUInt8, hi.toUInt8, (lo >>> 8).toUInt8, lo.toUInt8⟩ hd
  generalize Ipv4.chars _ = cs at h4 ⊢
  have hf : "::ffff:".toList ++ cs ++ rest =
      ':' :: ':' :: (Nat.toDigits 16 (0xffff : UInt16).toNat ++ ':' :: (cs ++ rest)) := by
    rw [show "::ffff:".toList = ':' :: ':' :: (Nat.toDigits 16 (0xffff : UInt16).toNat ++ [':'])
      by decide]
    simp only [List.cons_append, List.append_assoc, List.nil_append]
  have hhead (cs : List Char) :
      readGroups 8 true (':' :: ':' :: cs) = ([], false, ':' :: ':' :: cs) :=
    readGroups_stop 8 true ⟨':', _, rfl, .inr (.inr ⟨rfl, rfl⟩)⟩
  have htail : readGroups 7 true
      (Nat.toDigits 16 (0xffff : UInt16).toNat ++ ':' :: (cs ++ rest)) =
        ([0xffff, hi, lo], true, rest) := by
    rw [readGroups_body (n := 6) (s := 0xffff) rfl rfl rfl, readGroups_dotted h4]
    simp only [be16_bytes]
  have hseg : ofSegments? [0, 0, 0, 0, 0, 0xffff, hi, lo] = some ip := by
    rw [← hs, ofSegments?_segments]
  rw [hf, read?, hhead]
  generalize Nat.toDigits 16 (0xffff : UInt16).toNat ++ ':' :: (cs ++ rest) = tail at htail
  simp [htail, hseg]

theorem read?_chars_append (ip : Ipv6) (hr : Closes rest) (hdot : '.' ∉ rest) :
    read? (ip.chars ++ rest) = some (ip, rest) := by
  unfold chars
  split
  · rename_i hi lo hs
    exact read?_mapped ip hs hr
  · have hz := isZeroRun_longestZeros ip.segments
    dsimp only
    split_ifs with hn
    · rw [List.append_assoc, List.append_assoc]
      exact read?_compressed ip hn hz hr hdot
    · have h := readGroups_groups (n := 8) ip.length_eq.le hr.stops hdot
      simp only [read?, h, ip.length_eq, if_true, ofSegments?_segments]
      rfl

end Ipv6

namespace SocketAddress

theorem readPort_toDigits (port : UInt16) :
    readPort (':' :: Nat.toDigits 10 port.toNat) = some port := by
  have hp : port.toNat < UInt16.size := UInt16.toNat_lt port
  simp [readPort, Text.Decimal.nat?_toDigits, hp]

/-- The scope as it is written. -/
def scopeChars (scope : UInt32) : List Char :=
  if scope = 0 then [] else '%' :: Nat.toDigits 10 scope.toNat

theorem readScope_scopeChars (scope : UInt32) {rest : List Char} (hr : rest.head? = some ']') :
    readScope (scopeChars scope ++ rest) = some (scope, rest) := by
  obtain ⟨rest, rfl⟩ := List.head?_eq_some_iff.mp hr
  unfold scopeChars
  split_ifs with h
  · rw [h]
    rfl
  · have hs : scope.toNat < UInt32.size := UInt32.toNat_lt scope
    have hc : (']' :: rest).takeWhile Char.isDigit = [] := rfl
    have ht := Text.Decimal.takeWhile_toDigits_append scope.toNat hc
    have hd := Text.Decimal.dropWhile_toDigits_append scope.toNat hc
    simp [readScope, ht, hd, Text.Decimal.nat?_toDigits, hs]

theorem closes_scope (scope : UInt32) (rest : List Char) :
    Ipv6.Closes (scopeChars scope ++ ']' :: rest) := by
  unfold scopeChars
  split_ifs
  · exact ⟨']', rest, rfl, .inl rfl⟩
  · exact ⟨'%', _, rfl, .inr rfl⟩

theorem noDot_decimal (n : Nat) : '.' ∉ Nat.toDigits 10 n := fun hm =>
  absurd (Text.Decimal.isDigit_of_mem_toDigits hm) (by decide)

theorem ofText?_text (a : SocketAddress) : ofText? a.text = some a := by
  rw [ofText?, text, String.toList_ofList]
  cases a with
  | v4 ip port =>
    have hc : (':' :: Nat.toDigits 10 port.toNat).takeWhile Char.isDigit = [] := rfl
    have h := ip.read?_chars_append hc
    rw [chars, ofChars?]
    · simp [h, readPort_toDigits]
    · -- No IPv4 address begins with a bracket.
      intro cs hcs
      rw [hcs] at h
      cases h
  | v6 ip scope port =>
    have hdot : '.' ∉ scopeChars scope ++ ']' :: ':' :: Nat.toDigits 10 port.toNat := by
      have hs : '.' ∉ scopeChars scope := by
        unfold scopeChars
        split_ifs <;> simp [noDot_decimal]
      simp [hs, noDot_decimal]
    have h := ip.read?_chars_append (closes_scope scope _) hdot
    have hc : (']' :: ':' :: Nat.toDigits 10 port.toNat).head? = some ']' := rfl
    have hs := readScope_scopeChars scope hc
    simp only [chars, ofChars?, List.cons_append, List.append_assoc]
    rw [← scopeChars]
    simp [h, hs, readPort_toDigits]

end SocketAddress
end Snooping
