import Snooping.Log.Entry

/-!
Messages of log entries. A message keeps as many of its first characters as fit into 256 bytes. The
search for the place to cut goes back over three bytes at most, for no character has more than four.
-/
namespace Snooping

namespace Text

variable {s : String} {i room : Nat} {p : s.Pos}

/-- The search stops at the last boundary that is not behind `i`. -/
theorem boundary?_eq_some (h : boundary? s i = some p) :
    p.offset.byteIdx ≤ i ∧
      ∀ q : s.Pos, q.offset.byteIdx ≤ i → q.offset.byteIdx ≤ p.offset.byteIdx := by
  induction i with
  | zero =>
    rw [boundary?, dif_pos String.Pos.Raw.isValid_zero] at h
    cases h
    exact ⟨Nat.le_refl 0, fun q hq => hq⟩
  | succ i ih =>
    rw [boundary?] at h
    split at h
    · cases h
      exact ⟨Nat.le_refl _, fun q hq => hq⟩
    · rename_i hno
      obtain ⟨hle, hlast⟩ := ih h
      refine ⟨by omega, fun q hq => hlast q ?_⟩
      have hne : q.offset.byteIdx ≠ i + 1 := by
        intro he
        exact hno (he ▸ q.isValid)
      omega

/-- A boundary parts a text in two, the first of which is what is cut off there. -/
theorem exists_append (p : s.Pos) :
    ∃ rest, s = s.extract s.startPos p ++ rest ∧
      (s.extract s.startPos p).utf8ByteSize = p.offset.byteIdx := by
  obtain ⟨first, rest, hs, hp⟩ := String.Pos.Raw.isValid_iff_exists_append.mp p.isValid
  have hsize : p.offset.byteIdx = first.utf8ByteSize := congrArg String.Pos.Raw.byteIdx hp
  have hcut : s.extract s.startPos p = first := by
    apply String.toByteArray_inj.mp
    rw [String.toByteArray_extract, hsize]
    subst hs
    simp [ByteArray.extract_append_eq_left]
  exact ⟨rest, by rw [hcut]; exact hs, by rw [hcut, hsize]⟩

/-- Wherever a text is parted in two, there is a boundary. -/
theorem exists_pos {first rest : String} (h : s = first ++ rest) :
    ∃ q : s.Pos, q.offset.byteIdx = first.utf8ByteSize :=
  ⟨⟨first.rawEndPos, String.Pos.Raw.isValid_iff_exists_append.mpr ⟨first, rest, h, rfl⟩⟩, rfl⟩

/-- Behind the last boundary that is not behind `i` stands a character that reaches beyond `i`. -/
theorem lt_add_four_of_boundary? (hlt : i < s.utf8ByteSize) (h : boundary? s i = some p) :
    i < p.offset.byteIdx + 4 := by
  obtain ⟨hle, hlast⟩ := boundary?_eq_some h
  obtain ⟨rest, hs, hsize⟩ := exists_append p
  have htotal := congrArg String.utf8ByteSize hs
  rw [String.utf8ByteSize_append, hsize] at htotal
  obtain ⟨cs, rfl⟩ := rest.exists_eq_ofList
  cases cs with
  | nil =>
    rw [String.ofList_nil, String.utf8ByteSize_empty] at htotal
    omega
  | cons c cs =>
    have hnext : s = (s.extract s.startPos p ++ String.singleton c) ++ String.ofList cs := by
      rw [String.append_assoc, String.singleton_eq_ofList, ← String.ofList_append]
      exact hs
    obtain ⟨q, hq⟩ := exists_pos hnext
    rw [String.utf8ByteSize_append, hsize, String.utf8ByteSize_singleton] at hq
    have hpos := c.utf8Size_pos
    have hfour := c.utf8Size_le_four
    have hbeyond : i < q.offset.byteIdx := by
      rcases Nat.lt_or_ge i q.offset.byteIdx with hlt | hge
      · exact hlt
      · have := hlast q hge
        omega
    omega

/-- What is kept of a text is its longest first part that fits. -/
theorem truncate_longest (room : Nat) (s : String) :
    (truncate room s).utf8ByteSize ≤ room ∧ (∃ rest, s = truncate room s ++ rest) ∧
      ∀ first rest, s = first ++ rest → first.utf8ByteSize ≤ room →
        first.utf8ByteSize ≤ (truncate room s).utf8ByteSize := by
  unfold truncate
  split
  · rename_i hfits
    refine ⟨hfits, ⟨"", by rw [String.append_empty]⟩, fun first rest hs _ => ?_⟩
    rw [hs, String.utf8ByteSize_append]
    exact Nat.le_add_right ..
  · obtain ⟨p, hp⟩ := Option.isSome_iff_exists.mp (isSome_boundary? s room)
    obtain ⟨hle, hlast⟩ := boundary?_eq_some hp
    obtain ⟨rest, hs, hsize⟩ := exists_append p
    simp only [hp, Option.get_some]
    refine ⟨by rwa [hsize], ⟨rest, hs⟩, fun first rest hs hfits => ?_⟩
    obtain ⟨q, hq⟩ := exists_pos hs
    rw [hsize, ← hq]
    exact hlast q (by rwa [hq])

/-- The second of two characters of two bytes would end at the fifth byte. -/
example : truncate 4 "aéé" = "aé" := by decide

/-- A text that does not fit is cut where the search ends, at most three bytes short of the room. -/
theorem truncate_of_lt (hlt : room < s.utf8ByteSize) :
    room < (truncate room s).utf8ByteSize + 4 ∧
      ∃ p, boundary? s room = some p ∧ p.offset.byteIdx = (truncate room s).utf8ByteSize := by
  obtain ⟨p, hp⟩ := Option.isSome_iff_exists.mp (isSome_boundary? s room)
  obtain ⟨_, _, hsize⟩ := exists_append p
  have hcut : truncate room s = s.extract s.startPos p := by
    rw [truncate, if_neg (by omega)]
    simp only [hp, Option.get_some]
  rw [hcut, hsize]
  exact ⟨lt_add_four_of_boundary? hlt hp, p, hp, rfl⟩

theorem truncate_eq_self_iff : truncate room s = s ↔ s.utf8ByteSize ≤ room := by
  constructor
  · intro h
    have hle := (truncate_longest room s).1
    rwa [h] at hle
  · intro h
    rw [truncate, if_pos h]

end Text

namespace Log.Entry

/-- A message is the longest first part of the text that has 256 bytes at most and ends with a
character. It is the text itself exactly if that has no more; else it has 253 to 256 bytes, and the
search backwards for its end, which begins at the 256th byte, succeeds there. -/
theorem messages_cut (severity : Severity) (facility : Facility) (s : String) :
    (new severity facility s).message.utf8ByteSize ≤ 256 ∧
      (∃ rest, s = (new severity facility s).message ++ rest) ∧
      (∀ first rest, s = first ++ rest → first.utf8ByteSize ≤ 256 →
        first.utf8ByteSize ≤ (new severity facility s).message.utf8ByteSize) ∧
      ((new severity facility s).message = s ↔ s.utf8ByteSize ≤ 256) ∧
      (∀ i, ∃ p, Text.boundary? s i = some p) ∧
      (256 < s.utf8ByteSize →
        253 ≤ (new severity facility s).message.utf8ByteSize ∧
          ∃ p, Text.boundary? s 256 = some p ∧
            p.offset.byteIdx = (new severity facility s).message.utf8ByteSize) := by
  obtain ⟨hle, hprefix, hlongest⟩ := Text.truncate_longest 256 s
  refine ⟨hle, hprefix, hlongest, Text.truncate_eq_self_iff,
    fun i => Option.isSome_iff_exists.mp (Text.isSome_boundary? s i), fun hlt => ?_⟩
  obtain ⟨hnear, hend⟩ := Text.truncate_of_lt hlt
  exact ⟨by change 256 < (new severity facility s).message.utf8ByteSize + 4 at hnear; omega, hend⟩

end Log.Entry
end Snooping
