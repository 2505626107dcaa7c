import Mathlib.Data.List.Basic
import Mathlib.Tactic.Common

/-! # Lines of a stream that is read in pieces

A stream of values with a separator is read in chunks, and its lines are put together from the
pieces that the chunks cut them into. A buffer that keeps what is left of each chunk finds the
lines of the stream (`split_split`). A reader that keeps to lines (`LineWise`) reads the pieces of
each line where it would read the line (`LineWise.split_flatMap`, `split_flatten`).
-/

namespace LineBuffer

variable {α β γ : Type}

/-- Puts a value in front of the first line. -/
def prepend (value : α) : List (List α) × List α → List (List α) × List α
  | ([], rest) => ([], value :: rest)
  | (line :: lines, rest) => ((value :: line) :: lines, rest)

/-- The lines that a separator ends, and what is left after them. -/
def split [DecidableEq α] (sep : α) : List α → List (List α) × List α
  | [] => ([], [])
  | value :: rest =>
      if value = sep then ([] :: (split sep rest).1, (split sep rest).2)
      else prepend value (split sep rest)

/-- The pieces that the chunks cut each line into, and those of what is left. -/
def cutLines [DecidableEq α] (sep : α) : List (List α) → List (List (List α)) × List (List α)
  | [] => ([], [])
  | chunk :: chunks =>
      let cut := prepend (split sep chunk).2 (cutLines sep chunks)
      ((split sep chunk).1.map ([·]) ++ cut.1, cut.2)

/-- The first chunk with a separator. -/
theorem exists_first_chunk {sep : α} {chunks : List (List α)}
    (found : ∃ chunk ∈ chunks, sep ∈ chunk) :
    ∃ before chunk after, chunks = before ++ chunk :: after ∧ sep ∈ chunk ∧
      ∀ other ∈ before, sep ∉ other := by
  induction chunks with
  | nil =>
      obtain ⟨chunk, member, -⟩ := found
      cases member
  | cons chunk chunks ih =>
      by_cases here : sep ∈ chunk
      · exact ⟨[], chunk, chunks, rfl, here, fun other member => absurd member List.not_mem_nil⟩
      · obtain ⟨inner, member, inside⟩ := found
        rcases List.mem_cons.mp member with rfl | later
        · exact absurd inside here
        · obtain ⟨before, other, after, rfl, member, absent⟩ := ih ⟨inner, later, inside⟩
          refine ⟨chunk :: before, other, after, rfl, member, ?_⟩
          exact List.forall_mem_cons.mpr ⟨here, absent⟩

section Lines

variable [DecidableEq α] {sep : α} {line : List α}

theorem split_of_not_mem (absent : sep ∉ line) : split sep line = ([], line) := by
  induction line with
  | nil => rfl
  | cons value rest ih =>
      obtain ⟨other, later⟩ := not_or.mp (fun member => absent (List.mem_cons.mpr member))
      rw [split, if_neg (Ne.symm other), ih later]
      rfl

theorem split_append (absent : sep ∉ line) (rest : List α) :
    split sep (line ++ sep :: rest) = (line :: (split sep rest).1, (split sep rest).2) := by
  induction line with
  | nil =>
      rw [List.nil_append, split, if_pos rfl]
  | cons value line ih =>
      obtain ⟨other, later⟩ := not_or.mp (fun member => absent (List.mem_cons.mpr member))
      rw [List.cons_append, split, if_neg (Ne.symm other), ih later]
      rfl

/-- The first line ends at the first separator. -/
theorem split_of_mem {text : List α} (found : sep ∈ text) :
    split sep text = (text.take (text.idxOf sep) :: (split sep (text.drop (text.idxOf sep + 1))).1,
      (split sep (text.drop (text.idxOf sep + 1))).2) := by
  obtain ⟨first, later, rfl, absent⟩ := List.eq_append_cons_of_mem found
  have place : (first ++ sep :: later).idxOf sep = first.length := by
    rw [List.idxOf_append_of_notMem absent, List.idxOf_cons_self, Nat.add_zero]
  have dropped : (first ++ sep :: later).drop (first.length + 1) = later := by
    rw [List.append_cons]
    exact List.drop_left' (List.length_append)
  rw [place, List.take_left, dropped]
  exact split_append absent later

/-- A stream is a rest without a separator, or a line in front of a stream. -/
@[elab_as_elim]
theorem line_induction {motive : List α → Prop} (sep : α)
    (rest : ∀ left, sep ∉ left → motive left)
    (line : ∀ first later, sep ∉ first → motive later → motive (first ++ sep :: later))
    (stream : List α) : motive stream := by
  induction size : stream.length using Nat.strongRecOn generalizing stream with
  | ind length ih =>
      by_cases found : sep ∈ stream
      · obtain ⟨first, later, rfl, absent⟩ := List.eq_append_cons_of_mem found
        have shorter : later.length < length := by
          rw [← size, List.length_append, List.length_cons]
          omega
        exact line first later absent (ih _ shorter later rfl)
      · exact rest stream found

/-- The lines of two parts: the second is read after what the first leaves. -/
theorem split_split (first second : List α) :
    split sep (first ++ second) =
      ((split sep first).1 ++ (split sep ((split sep first).2 ++ second)).1,
        (split sep ((split sep first).2 ++ second)).2) := by
  induction first using line_induction sep with
  | rest left absent =>
      rw [split_of_not_mem absent]
      rfl
  | line first later absent ih =>
      rw [List.append_assoc, List.cons_append, split_append absent, split_append absent, ih]
      rfl

theorem splitOn_eq (stream : List α) :
    stream.splitOn sep = (split sep stream).1 ++ [(split sep stream).2] := by
  induction stream using line_induction sep with
  | rest left absent =>
      rw [split_of_not_mem absent]
      exact List.splitOn_eq_singleton absent
  | line first later absent ih =>
      rw [split_append absent, List.splitOn_append_cons_self_of_not_mem absent, ih]
      rfl

end Lines

section Chunks

variable [DecidableEq α] {sep : α} {chunks : List (List α)}

theorem cutLines_of_not_mem (absent : ∀ chunk ∈ chunks, sep ∉ chunk) :
    cutLines sep chunks = ([], chunks) := by
  induction chunks with
  | nil => rfl
  | cons chunk chunks ih =>
      obtain ⟨here, later⟩ := List.forall_mem_cons.mp absent
      rw [cutLines, split_of_not_mem here, ih later]
      rfl

theorem cutLines_single (chunk : List α) :
    cutLines sep [chunk] = ((split sep chunk).1.map ([·]), [(split sep chunk).2]) := by
  rw [cutLines, cutLines, prepend, List.append_nil]

theorem cutLines_append {before : List (List α)} {first : List α}
    (absent : ∀ chunk ∈ before, sep ∉ chunk) (line : sep ∉ first) (later : List α)
    (after : List (List α)) :
    cutLines sep (before ++ (first ++ sep :: later) :: after) =
      ((before ++ [first]) :: (cutLines sep (later :: after)).1,
        (cutLines sep (later :: after)).2) := by
  induction before with
  | nil =>
      rw [List.nil_append, cutLines, split_append line]
      rfl
  | cons chunk before ih =>
      obtain ⟨here, rest⟩ := List.forall_mem_cons.mp absent
      rw [List.cons_append, cutLines, split_of_not_mem here, ih rest]
      rfl

/-- Chunks hold no separator, or a first line that ends in one of them. -/
@[elab_as_elim]
theorem chunk_induction {motive : List (List α) → Prop} (sep : α)
    (rest : ∀ left, (∀ chunk ∈ left, sep ∉ chunk) → motive left)
    (line : ∀ before first later after, (∀ chunk ∈ before, sep ∉ chunk) → sep ∉ first →
      motive (later :: after) → motive (before ++ (first ++ sep :: later) :: after))
    (chunks : List (List α)) : motive chunks := by
  induction size : chunks.flatten.length using Nat.strongRecOn generalizing chunks with
  | ind length ih =>
      by_cases found : ∃ chunk ∈ chunks, sep ∈ chunk
      · obtain ⟨before, chunk, after, rfl, member, absent⟩ := exists_first_chunk found
        obtain ⟨first, later, rfl, none⟩ := List.eq_append_cons_of_mem member
        have shorter : (later :: after).flatten.length < length := by
          rw [← size]
          simp only [List.flatten_append, List.flatten_cons, List.length_append, List.length_cons]
          omega
        exact line before first later after absent none (ih _ shorter _ rfl)
      · refine rest chunks ?_
        intro chunk member inside
        exact found ⟨chunk, member, inside⟩

/-- The pieces of the lines make up the lines of the stream. -/
theorem split_flatten (chunks : List (List α)) :
    split sep chunks.flatten =
      ((cutLines sep chunks).1.map List.flatten, (cutLines sep chunks).2.flatten) := by
  induction chunks using chunk_induction sep with
  | rest left absent =>
      have free : sep ∉ left.flatten := by
        intro member
        obtain ⟨chunk, inside, found⟩ := List.mem_flatten.mp member
        exact absent chunk inside found
      rw [cutLines_of_not_mem absent, split_of_not_mem free]
      rfl
  | line before first later after absent line ih =>
      have free : sep ∉ (before ++ [first]).flatten := by
        intro member
        obtain ⟨chunk, inside, found⟩ := List.mem_flatten.mp member
        rcases List.mem_append.mp inside with early | last
        · exact absent chunk early found
        · rw [List.mem_singleton.mp last] at found
          exact line found
      have shape : (before ++ (first ++ sep :: later) :: after).flatten =
          (before ++ [first]).flatten ++ sep :: (later :: after).flatten := by
        simp only [List.flatten_append, List.flatten_cons, List.flatten_nil, List.append_assoc,
          List.cons_append, List.append_nil]
      rw [shape, split_append free, ih, cutLines_append absent line]
      rfl

end Chunks

/-! ## Readers that keep to lines -/

/-- What is read of a line holds no separator, and what is read after it does not depend on it. -/
structure LineWise (sep : α) (sep' : β) (read : List α → List β) : Prop where
  line : ∀ line, sep ∉ line → sep' ∉ read line
  append : ∀ line rest, sep ∉ line → read (line ++ sep :: rest) = read line ++ sep' :: read rest

section Readers

variable {sep : α} {sep' : β} {sep'' : γ} {read : List α → List β}

theorem LineWise.not_mem_flatMap (wise : LineWise sep sep' read) {chunks : List (List α)}
    (absent : ∀ chunk ∈ chunks, sep ∉ chunk) : sep' ∉ chunks.flatMap read := by
  intro member
  obtain ⟨chunk, inside, found⟩ := List.mem_flatMap.mp member
  exact wise.line chunk (absent chunk inside) found

theorem LineWise.comp {read' : List β → List γ} (outer : LineWise sep' sep'' read')
    (inner : LineWise sep sep' read) : LineWise sep sep'' (read' ∘ read) := by
  refine ⟨?_, ?_⟩
  · intro line absent
    exact outer.line _ (inner.line line absent)
  · intro line rest absent
    change read' (read (line ++ sep :: rest)) = _
    rw [inner.append line rest absent, outer.append _ _ (inner.line line absent)]
    rfl

/-- A reader of single values keeps to lines if it makes a separator of separators only. -/
theorem LineWise.flatMap {read : α → List β} (ends : read sep = [sep'])
    (others : ∀ value, value ≠ sep → sep' ∉ read value) :
    LineWise sep sep' fun stream => stream.flatMap read := by
  refine ⟨?_, ?_⟩
  · intro line absent member
    obtain ⟨value, inside, found⟩ := List.mem_flatMap.mp member
    refine others value ?_ found
    rintro rfl
    exact absent inside
  · intro line rest _
    rw [List.flatMap_append, List.flatMap_cons, ends]
    rfl

variable [DecidableEq α] [DecidableEq β]

theorem LineWise.split (wise : LineWise sep sep' read) (stream : List α) :
    split sep' (read stream) =
      ((LineBuffer.split sep stream).1.map read, read (LineBuffer.split sep stream).2) := by
  induction stream using line_induction sep with
  | rest left absent =>
      rw [split_of_not_mem absent, split_of_not_mem (wise.line left absent)]
      rfl
  | line first later absent ih =>
      rw [wise.append first later absent, split_append (wise.line first absent), ih,
        split_append absent]
      rfl

/-- Reading chunk by chunk meets the pieces of each line. -/
theorem LineWise.split_flatMap (wise : LineWise sep sep' read) (chunks : List (List α)) :
    LineBuffer.split sep' (chunks.flatMap read) =
      ((cutLines sep chunks).1.map fun pieces => pieces.flatMap read,
        (cutLines sep chunks).2.flatMap read) := by
  induction chunks using chunk_induction sep with
  | rest left absent =>
      rw [cutLines_of_not_mem absent, split_of_not_mem (wise.not_mem_flatMap absent)]
      rfl
  | line before first later after absent line ih =>
      have free : sep' ∉ (before ++ [first]).flatMap read := by
        apply wise.not_mem_flatMap
        intro chunk inside
        rcases List.mem_append.mp inside with early | last
        · exact absent chunk early
        · rwa [List.mem_singleton.mp last]
      have shape : (before ++ (first ++ sep :: later) :: after).flatMap read =
          (before ++ [first]).flatMap read ++ sep' :: (later :: after).flatMap read := by
        simp only [List.flatMap_append, List.flatMap_cons, List.flatMap_nil, List.append_assoc,
          List.append_nil, wise.append first later line, List.cons_append]
      rw [shape, split_append free, ih, cutLines_append absent line]
      rfl

end Readers

/-! ## Lines that are shown -/

section Shown

variable {ι : Type} {shown : List β → Bool} {got whole : ι → List β} {lines : List ι}

/-- Lines that are shown where they were changed are not fewer. -/
theorem length_shown_le
    (changed : ∀ line ∈ lines, got line = whole line ∨ shown (got line) = true) :
    ((lines.map whole).filter shown).length ≤ ((lines.map got).filter shown).length := by
  induction lines with
  | nil => exact Nat.le_refl _
  | cons line lines ih =>
      obtain ⟨here, later⟩ := List.forall_mem_cons.mp changed
      have rest := ih later
      rw [List.map_cons, List.map_cons]
      cases seen : shown (whole line) with
      | true =>
          have visible : shown (got line) = true := here.elim (fun same => same ▸ seen) id
          rw [List.filter_cons_of_pos seen, List.filter_cons_of_pos visible]
          exact Nat.succ_le_succ rest
      | false =>
          rw [List.filter_cons_of_neg (by simp [seen]), List.filter_cons]
          split
          · exact Nat.le_succ_of_le rest
          · exact rest

/-- If lines are shown where they were changed, what is shown is the same only if they all are. -/
theorem shown_eq_iff
    (changed : ∀ line ∈ lines, got line = whole line ∨ shown (got line) = true) :
    (lines.map got).filter shown = (lines.map whole).filter shown ↔
      ∀ line ∈ lines, got line = whole line := by
  constructor
  · intro same
    induction lines with
    | nil => exact fun line member => absurd member List.not_mem_nil
    | cons line lines ih =>
        obtain ⟨here, later⟩ := List.forall_mem_cons.mp changed
        rw [List.map_cons, List.map_cons] at same
        by_cases equal : got line = whole line
        · rw [equal, List.filter_cons, List.filter_cons] at same
          refine List.forall_mem_cons.mpr ⟨equal, ih later ?_⟩
          split at same
          · exact (List.cons.inj same).2
          · exact same
        · have visible := here.resolve_left equal
          rw [List.filter_cons_of_pos visible, List.filter_cons] at same
          split at same
          · exact absurd (List.cons.inj same).1 equal
          · -- one line more is shown than there should be
            have long := congrArg List.length same
            have fewer := length_shown_le later
            rw [List.length_cons] at long
            omega
  · intro same
    rw [List.map_congr_left same]

end Shown

end LineBuffer
