import Mathlib.Data.List.Infix

/-!
# Text replaced in a text

`replaceAll pattern replacement` goes through a text from left to right and puts the
replacement in the place of each occurrence of the pattern that it meets. It is what
`String.replace` does (`toList_replace`), which searches with a table; a pattern of one
character is replaced character by character (`replaceAll_singleton`).
-/

namespace HotelBackend.Theory

/-- Every occurrence of the pattern, from the left, is replaced. -/
def replaceAll (pattern replacement : List Char) : List Char → List Char
  | [] => []
  | c :: cs =>
    if pattern ≠ [] ∧ pattern <+: c :: cs then replacement ++ replaceAll pattern replacement ((c :: cs).drop pattern.length)
    else c :: replaceAll pattern replacement cs
termination_by cs => cs.length
decreasing_by
  · rename_i h
    have hpos := List.length_pos_iff.2 h.1
    simp only [List.length_drop, List.length_cons]
    omega
  · simp

section Lists

variable {pattern replacement cs : List Char} {c : Char}

@[simp] theorem replaceAll_nil : replaceAll pattern replacement [] = [] := by
  rw [replaceAll]

theorem replaceAll_of_matched (hpattern : pattern ≠ []) (rest : List Char) :
    replaceAll pattern replacement (pattern ++ rest) = replacement ++ replaceAll pattern replacement rest := by
  cases pattern with
  | nil => exact absurd rfl hpattern
  | cons p ps =>
    have hmatch : p :: ps ≠ [] ∧ p :: ps <+: p :: (ps ++ rest) := ⟨hpattern, List.prefix_append (p :: ps) rest⟩
    rw [List.cons_append, replaceAll, if_pos hmatch, ← List.cons_append, List.drop_left]

theorem replaceAll_of_unmatched (h : ¬ pattern <+: c :: cs) :
    replaceAll pattern replacement (c :: cs) = c :: replaceAll pattern replacement cs := by
  rw [replaceAll, if_neg fun hmatch => h hmatch.2]

/-- Where no occurrence begins, nothing changes. -/
theorem replaceAll_append {unmatched rest : List Char}
    (h : ∀ read unread, unmatched = read ++ unread → unread ≠ [] → ¬ pattern <+: unread ++ rest) :
    replaceAll pattern replacement (unmatched ++ rest) = unmatched ++ replaceAll pattern replacement rest := by
  induction unmatched with
  | nil => rfl
  | cons c cs ih =>
    have hhead : ¬ pattern <+: c :: (cs ++ rest) := h [] (c :: cs) rfl (List.cons_ne_nil c cs)
    rw [List.cons_append, replaceAll_of_unmatched hhead, List.cons_append,
      ih fun read unread heq => h (c :: read) unread (congrArg (c :: ·) heq)]

/-- A pattern of one character. -/
theorem replaceAll_singleton (c : Char) (cs : List Char) :
    replaceAll [c] replacement cs = cs.flatMap fun d => if d = c then replacement else [d] := by
  induction cs with
  | nil => simp
  | cons d cs ih =>
    rw [List.flatMap_cons]
    by_cases hd : d = c
    · subst hd
      rw [if_pos rfl, ← ih]
      exact replaceAll_of_matched (List.cons_ne_nil d []) cs
    · have hnot : ¬ [c] <+: d :: cs := fun h => hd (List.cons_prefix_cons.1 h).1.symm
      rw [if_neg hd, replaceAll_of_unmatched hnot, ih]
      rfl

end Lists

/-! ### Strings -/

open String String.Slice String.Slice.Pattern String.Slice.Pattern.Model

variable {s : Slice} {pattern replacement : String}

/-- A step of `String.replace`. -/
def replaceStep (s : Slice) (replacement : String) (sofar : String) : SearchStep s → String
  | .matched _ _ => sofar ++ replacement.toSlice
  | .rejected start stop => sofar ++ s.slice! start stop

/-- Where the search found nothing, no occurrence begins. -/
theorem not_prefix_of_not_matchesAt {start stop : s.Pos} (hnone : ∀ pos, start ≤ pos → pos < stop → ¬ MatchesAt pattern pos)
    {before mid rest : String} (hstart : start.Splits before (mid ++ rest)) (hstop : stop.Splits (before ++ mid) rest)
    (read unread : List Char) (hsplit : mid.toList = read ++ unread) (hunread : unread ≠ []) :
    ¬ pattern.toList <+: unread ++ rest.toList := by
  rintro ⟨after, hafter⟩
  obtain rfl : mid = String.ofList read ++ String.ofList unread := by
    rw [← String.ofList_append, ← hsplit, String.ofList_toList]
  rw [String.append_assoc] at hstart
  have hat : hstart.rotateRight.Splits (before ++ String.ofList read) (String.ofList unread ++ rest) := hstart.splits_rotateRight
  have htext : String.ofList unread ++ rest = pattern ++ String.ofList after := by
    rw [← String.toList_inj]
    simpa using hafter.symm
  have hmatches : MatchesAt pattern hstart.rotateRight :=
    ForwardStringSearcher.matchesAt_iff_splits.2 ⟨before ++ String.ofList read, String.ofList after, htext ▸ hat⟩
  refine hnone hstart.rotateRight ?_ ?_ hmatches
  · exact (hstart.le_iff_exists_eq_append hat).2 ⟨String.ofList read, rfl, rfl⟩
  · refine (hat.lt_iff_exists_eq_append hstop).2 ⟨String.ofList unread, ?_, ?_, rfl⟩
    · simpa using hunread
    · rw [String.append_assoc]

/-- What the search has not come to is replaced as a list. -/
theorem toList_foldl_replaceStep (replacement : String) (hpattern : pattern ≠ "") {pos : s.Pos} {steps : List (SearchStep s)}
    (hsearch : IsValidSearchFrom pattern pos steps) {before after : String} (hpos : pos.Splits before after) (sofar : String) :
    (steps.foldl (replaceStep s replacement) sofar).toList =
      sofar.toList ++ replaceAll pattern.toList replacement.toList after.toList := by
  have hne : pattern.toList ≠ [] := by simpa using hpattern
  induction hsearch generalizing before after sofar with
  | endPos =>
    obtain rfl := hpos.eq_right (Slice.splits_endPos s)
    simp
  | matched hmatch _ ih =>
    obtain ⟨t₁, t₂, hstart, hend⟩ := ForwardStringSearcher.isLongestMatchAt_iff_splits.1 hmatch
    obtain rfl := hpos.eq_right hstart
    rw [List.foldl_cons, ih hend, String.toList_append, replaceAll_of_matched hne]
    simp [replaceStep]
  | @mismatched steps start stop hlt hnone _ ih =>
    obtain ⟨mid, -, hbefore, rfl⟩ := (hpos.lt_iff_exists_eq_append stop.splits).1 hlt
    have hstop : stop.Splits (before ++ mid) (s.sliceFrom stop).copy := hbefore ▸ stop.splits
    obtain ⟨hle, hmid⟩ := Slice.copy_slice_eq_iff_splits.2 ⟨before, _, hpos, hstop⟩
    rw [List.foldl_cons, ih hstop, String.toList_append, replaceAll_append (not_prefix_of_not_matchesAt hnone hpos hstop), ← List.append_assoc]
    have hsofar : replaceStep s replacement sofar (.rejected start stop) = sofar ++ mid := by
      rw [replaceStep, ← Slice.slice_eq_slice! (h := hle), ← hmid]
      rfl
    rw [hsofar, String.toList_append]

/-- `String.replace`, as a list. -/
theorem toList_replace (hpattern : pattern ≠ "") (text : String) :
    (text.replace pattern replacement).toList = replaceAll pattern.toList replacement.toList text.toList := by
  have hlawful := ForwardStringSearcher.lawfulToForwardSearcherModel hpattern
  have hsearch := hlawful.isValidSearchFrom_toList text.toSlice
  have hsteps := toList_foldl_replaceStep replacement hpattern hsearch (Slice.splits_startPos text.toSlice) ""
  have hfold : text.replace pattern replacement =
      (ToForwardSearcher.toSearcher pattern text.toSlice).toList.foldl (replaceStep text.toSlice replacement) "" := by
    rw [Std.Iter.foldl_toList]
    unfold String.replace String.Slice.replace
    congr 1
    funext sofar step
    cases step <;> rfl
  rw [hfold, hsteps]
  simp

/-- One character for a text. -/
theorem toList_replace_char (text : String) {c : Char} (hpattern : pattern.toList = [c]) :
    (text.replace pattern replacement).toList = text.toList.flatMap fun d => if d = c then replacement.toList else [d] := by
  have hne : pattern ≠ "" := fun h => by simp [h] at hpattern
  rw [toList_replace hne, hpattern, replaceAll_singleton]

end HotelBackend.Theory
