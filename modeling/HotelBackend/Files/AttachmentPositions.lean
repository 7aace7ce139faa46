import HotelBackend.Files.Uploads
import HotelBackend.Theory.RowOrder
import Mathlib.Data.List.Dedup

/-!
# The order of attachments

The attachments of a target are at the positions `0 … n - 1`, and `n` is at most what their policy allows, after
any uploads, replacements, deletions and reorders (`attachments_ordered`).

`rewriteAttachmentPositions` is two statements, and the engine checks the unique key and the range of the column
after each row of either. Below `positionRewriteOffset` positions none is refused, in whatever order the engine
visits the rows (`rewriteByRow_eq_some`).
-/

namespace HotelBackend.Files

open HotelBackend.Theory

/-! ### Policies -/

/-- `AttachmentPolicyRegistry.resolve`; a pair has one entry. -/
def resolve (policies : List AttachmentPolicy) (objectType : AttachmentObjectType) (associationType : AttachmentAssociationType) :
    Option AttachmentPolicy :=
  policies.find? fun policy => policy.objectType = objectType && policy.associationType = associationType

/-- What a target may have; an association without a policy gets nothing. -/
def maxCountOf (policies : List AttachmentPolicy) (target : AttachmentTarget) : ℕ :=
  (resolve policies target.objectType target.associationType).elim 0 (·.maxCount)

/-! ### A rewrite, a row at a time -/

/-- `uq_attachments_target_position`, and the range of the column. -/
def acceptsPositions (attachments : List Attachment) : Bool :=
  decide (attachments.map fun a => (a.target, a.position)).Nodup && attachments.all (·.position ≤ Table.maxSmallint)

/-- `position + positionRewriteOffset` -/
def shiftPosition (a : Attachment) : Attachment := { a with position := a.position + positionRewriteOffset }

/-- `CASE id WHEN … THEN … END` -/
def placeAt (orderedAttachmentIds : List String) (a : Attachment) : Attachment := { a with position := orderedAttachmentIds.idxOf a.id }

/-- `rewriteAttachmentPositions` as the engine carries it out, with the rows of its statements visited in the orders
`shifts` and `placements`; `none` if a row is refused. -/
def rewriteByRow (attachments : List Attachment) (target : AttachmentTarget) (orderedAttachmentIds shifts placements : List String) :
    Option (List Attachment) :=
  if orderedAttachmentIds = [] then some attachments
  else do
    let shifted ← Table.updateEach (·.id) (·.target = target) shiftPosition acceptsPositions shifts attachments
    Table.updateEach (·.id) (fun a => a.target = target && a.id ∈ orderedAttachmentIds) (placeAt orderedAttachmentIds) acceptsPositions
      placements shifted

/-- The rows of a target, as they come. -/
def ofTarget (attachments : List Attachment) (target : AttachmentTarget) : List Attachment := attachments.filter (·.target = target)

/-- Positions a rewrite can start from. -/
structure Placed (attachments : List Attachment) : Prop where
  ids : (attachments.map (·.id)).Nodup
  distinct : ∀ a ∈ attachments, ∀ b ∈ attachments, a.target = b.target → a.position = b.position → a.id = b.id
  below : ∀ a ∈ attachments, a.position < positionRewriteOffset

section Rewrite

variable {attachments : List Attachment} {target : AttachmentTarget} {ids shifts placements : List String}

/-- A column of positions without a repeat in it, and in range. -/
theorem acceptsPositions_map {g : Attachment → Attachment} (hn : (attachments.map (·.id)).Nodup) (htarget : ∀ a, (g a).target = a.target)
    (hinj : ∀ a ∈ attachments, ∀ b ∈ attachments, a.target = b.target → (g a).position = (g b).position → a.id = b.id)
    (hrange : ∀ a ∈ attachments, (g a).position ≤ Table.maxSmallint) : acceptsPositions (attachments.map g) = true := by
  unfold acceptsPositions
  rw [Bool.and_eq_true, decide_eq_true_eq, List.map_map, List.all_map, List.all_eq_true]
  constructor
  · refine List.Nodup.map_on (fun a ha b hb hab => ?_) (List.Nodup.of_map _ hn)
    simp only [Function.comp_apply, Prod.mk.injEq, htarget] at hab
    exact List.inj_on_of_nodup_map hn ha hb (hinj a ha b hb hab.1 hab.2)
  · intro a ha
    exact decide_eq_true (hrange a ha)

/-- A row in the middle of the first statement. -/
def shifting (target : AttachmentTarget) (visited : List String) (a : Attachment) : Attachment :=
  if decide (a.target = target) && decide (a.id ∈ visited) then shiftPosition a else a

/-- A row in the middle of the second. -/
def placing (target : AttachmentTarget) (ids visited : List String) (a : Attachment) : Attachment :=
  let a := if decide (a.target = target) then shiftPosition a else a
  if decide (a.target = target) && decide (a.id ∈ ids) && decide (a.id ∈ visited) then placeAt ids a else a

theorem shifting_position (target : AttachmentTarget) (visited : List String) (a : Attachment) :
    (shifting target visited a).target = a.target ∧
      ((shifting target visited a).position = a.position + positionRewriteOffset ∨ (shifting target visited a).position = a.position) := by
  unfold shifting
  split
  · exact ⟨rfl, .inl rfl⟩
  · exact ⟨rfl, .inr rfl⟩

/-- It is placed, shifted, or of another target. -/
theorem placing_position (target : AttachmentTarget) (ids visited : List String) (a : Attachment) :
    (placing target ids visited a).target = a.target ∧
      ((a.target = target ∧ a.id ∈ ids ∧ (placing target ids visited a).position = ids.idxOf a.id) ∨
        (a.target = target ∧ (placing target ids visited a).position = a.position + positionRewriteOffset) ∨
        (a.target ≠ target ∧ (placing target ids visited a).position = a.position)) := by
  unfold placing
  by_cases htarget : a.target = target
  · rw [if_pos (decide_eq_true htarget)]
    dsimp only
    split
    · next hplaced =>
      rw [Bool.and_eq_true, Bool.and_eq_true, decide_eq_true_eq, decide_eq_true_eq] at hplaced
      exact ⟨rfl, .inl ⟨htarget, hplaced.1.2, rfl⟩⟩
    · exact ⟨rfl, .inr (.inl ⟨htarget, rfl⟩)⟩
  · simp [htarget]

/-- Shifted rows are out of the way of those yet to be shifted. -/
theorem acceptsPositions_shift (h : Placed attachments) (visited : List String) :
    acceptsPositions (Table.visitedRows (·.id) (·.target = target) shiftPosition visited attachments) = true := by
  show acceptsPositions (attachments.map (shifting target visited)) = true
  refine acceptsPositions_map h.ids (fun a => (shifting_position target visited a).1) (fun a ha b hb htarget hab => ?_) fun a ha => ?_
  · have hbelow : a.position < 1000 := h.below a ha
    have hbelow' : b.position < 1000 := h.below b hb
    have hshift := (shifting_position target visited a).2
    have hshift' := (shifting_position target visited b).2
    unfold positionRewriteOffset at hshift hshift'
    exact h.distinct a ha b hb htarget (by omega)
  · have hbelow : a.position < 1000 := h.below a ha
    have hshift := (shifting_position target visited a).2
    unfold positionRewriteOffset at hshift
    unfold Table.maxSmallint
    omega

/-- Placed rows are out of the way of the shifted ones. -/
theorem acceptsPositions_place (h : Placed attachments) (hlength : ids.length ≤ positionRewriteOffset) (visited : List String) :
    acceptsPositions (Table.visitedRows (·.id) (fun a => a.target = target && a.id ∈ ids) (placeAt ids) visited
      (Table.update attachments (·.target = target) shiftPosition)) = true := by
  unfold Table.visitedRows Table.update
  rw [List.map_map]
  show acceptsPositions (attachments.map (placing target ids visited)) = true
  have hidx : ∀ {a : Attachment}, a.id ∈ ids → ids.idxOf a.id < 1000 := fun ha => (List.idxOf_lt_length_of_mem ha).trans_le hlength
  refine acceptsPositions_map h.ids (fun a => (placing_position target ids visited a).1) (fun a ha b hb htarget hab => ?_) fun a ha => ?_
  · have hbelow : a.position < 1000 := h.below a ha
    have hbelow' : b.position < 1000 := h.below b hb
    have hsame : a.target = target ↔ b.target = target := by rw [htarget]
    obtain ⟨-, hat⟩ := placing_position target ids visited a
    obtain ⟨-, hbt⟩ := placing_position target ids visited b
    unfold positionRewriteOffset at hat hbt
    rcases hat with ⟨ha', hmem, hpos⟩ | ⟨ha', hpos⟩ | ⟨ha', hpos⟩ <;> rcases hbt with ⟨hb', hmem', hpos'⟩ | ⟨hb', hpos'⟩ | ⟨hb', hpos'⟩
    · exact (List.idxOf_inj hmem).1 (hpos.symm.trans (hab.trans hpos'))
    · have := hidx hmem
      omega
    · exact absurd (hsame.1 ha') hb'
    · have := hidx hmem'
      omega
    · exact h.distinct a ha b hb htarget (by omega)
    · exact absurd (hsame.1 ha') hb'
    · exact absurd (hsame.2 hb') ha'
    · exact absurd (hsame.2 hb') ha'
    · exact h.distinct a ha b hb htarget (by omega)
  · have hbelow : a.position < 1000 := h.below a ha
    obtain ⟨-, hat⟩ := placing_position target ids visited a
    unfold positionRewriteOffset at hat
    unfold Table.maxSmallint
    rcases hat with ⟨-, hmem, hpos⟩ | ⟨-, hpos⟩ | ⟨-, hpos⟩
    · have := hidx hmem
      omega
    · omega
    · omega

/-- **No row is refused.** Below the offset, for a list that names the rows of the target once each, the
statements run to their end in whatever orders they visit the rows. -/
theorem rewriteByRow_eq_some (h : Placed attachments) (hids : ids.Perm ((ofTarget attachments target).map (·.id)))
    (hlength : ids.length ≤ positionRewriteOffset) (hshifts : shifts.Perm ((ofTarget attachments target).map (·.id)))
    (hplacements : placements.Perm ids) :
    rewriteByRow attachments target ids shifts placements = some (rewriteAttachmentPositions attachments target ids) := by
  unfold rewriteByRow rewriteAttachmentPositions
  by_cases hnone : ids = []
  · rw [if_pos hnone, if_pos hnone]
  · rw [if_neg hnone, if_neg hnone]
    have hshifted : Table.updateEach (·.id) (·.target = target) shiftPosition acceptsPositions shifts attachments =
        some (Table.update attachments (·.target = target) shiftPosition) :=
      Table.updateEach_eq_some (fun _ => rfl) (fun _ => rfl) h.ids hshifts (acceptsPositions_shift h)
    have hn : ((Table.update attachments (·.target = target) shiftPosition).map (·.id)).Nodup := by
      have hkeys : (Table.update attachments (·.target = target) shiftPosition).map (·.id) = attachments.map (·.id) :=
        Table.map_update fun _ _ _ => rfl
      rw [hkeys]
      exact h.ids
    -- the second statement matches every row of the target
    have hmatched : ((Table.update attachments (·.target = target) shiftPosition).filter
        fun a => a.target = target && a.id ∈ ids).map (·.id) = (ofTarget attachments target).map (·.id) := by
      have hkept : ∀ a : Attachment, (if decide (a.target = target) = true then shiftPosition a else a).id = a.id ∧
          (if decide (a.target = target) = true then shiftPosition a else a).target = a.target := by
        intro a
        split <;> exact ⟨rfl, rfl⟩
      unfold Table.update ofTarget
      rw [List.filter_map, List.map_map]
      refine (List.map_congr_left fun a _ => (hkept a).1).trans ?_
      congr 1
      refine List.filter_congr fun a ha => ?_
      rw [Function.comp_apply, (hkept a).1, (hkept a).2]
      by_cases htarget : a.target = target
      · have hin : a.id ∈ ids := hids.mem_iff.2 (List.mem_map_of_mem (List.mem_filter.2 ⟨ha, decide_eq_true htarget⟩))
        simp [htarget, hin]
      · simp [htarget]
    rw [hshifted, Option.bind_eq_bind, Option.bind_some]
    exact Table.updateEach_eq_some (fun _ => rfl) (fun _ => rfl) hn (hplacements.trans (hmatched ▸ hids)) (acceptsPositions_place h hlength)

/-- A list that names the rows of the target once each puts them at their places in it, and leaves the others. -/
theorem rewriteAttachmentPositions_eq (hids : ids.Perm ((ofTarget attachments target).map (·.id))) :
    rewriteAttachmentPositions attachments target ids = attachments.map fun a => if a.target = target then placeAt ids a else a := by
  have hmem : ∀ a ∈ attachments, a.target = target → a.id ∈ ids := fun a ha htarget =>
    hids.mem_iff.2 (List.mem_map_of_mem (List.mem_filter.2 ⟨ha, decide_eq_true htarget⟩))
  unfold rewriteAttachmentPositions
  split
  · next hnone =>
    refine (List.map_id' attachments).symm.trans (List.map_congr_left fun a ha => ?_)
    rw [if_neg]
    intro htarget
    have hin := hmem a ha htarget
    rw [hnone] at hin
    exact List.not_mem_nil hin
  · unfold Table.update
    rw [List.map_map]
    refine List.map_congr_left fun a ha => ?_
    by_cases htarget : a.target = target
    · have hin := hmem a ha htarget
      have hmatched : (decide ((shiftPosition a).target = target) && decide ((shiftPosition a).id ∈ ids)) = true := by
        rw [Bool.and_eq_true, decide_eq_true_eq, decide_eq_true_eq]
        exact ⟨htarget, hin⟩
      rw [Function.comp_apply, if_pos (decide_eq_true htarget), if_pos htarget]
      exact if_pos hmatched
    · simp [htarget]

end Rewrite

/-! ### The invariant -/

/-- The positions of every target are `0 … n - 1`, and `n` is at most what its policy allows. -/
structure Ordered (policies : List AttachmentPolicy) (attachments : List Attachment) : Prop where
  ids : (attachments.map (·.id)).Nodup
  contiguous : ∀ target, ((ofTarget attachments target).map (·.position)).Perm (List.range (ofTarget attachments target).length)
  counts : ∀ target, (ofTarget attachments target).length ≤ maxCountOf policies target

section Invariant

variable {policies : List AttachmentPolicy} {attachments attachments' : List Attachment} {target : AttachmentTarget} {ids : List String}

theorem mem_ofTarget {a : Attachment} : a ∈ ofTarget attachments target ↔ a ∈ attachments ∧ a.target = target := by
  rw [ofTarget, List.mem_filter, decide_eq_true_eq]

theorem ofTarget_ids (h : (attachments.map (·.id)).Nodup) : ((ofTarget attachments target).map (·.id)).Nodup :=
  h.sublist (List.filter_sublist.map _)

theorem findTargetAttachments_perm : (findTargetAttachments attachments target).Perm (ofTarget attachments target) :=
  List.perm_insertionSort _ _

theorem Ordered.placed (h : Ordered policies attachments) (hmax : ∀ target, maxCountOf policies target ≤ positionRewriteOffset) :
    Placed attachments where
  ids := h.ids
  distinct a ha b hb htarget hposition := by
    have hn : ((ofTarget attachments a.target).map (·.position)).Nodup := (h.contiguous a.target).nodup_iff.2 List.nodup_range
    rw [List.inj_on_of_nodup_map hn (mem_ofTarget.2 ⟨ha, rfl⟩) (mem_ofTarget.2 ⟨hb, htarget.symm⟩) hposition]
  below a ha := by
    have hin : a.position ∈ List.range (ofTarget attachments a.target).length :=
      (h.contiguous a.target).mem_iff.1 (List.mem_map_of_mem (mem_ofTarget.2 ⟨ha, rfl⟩))
    exact (List.mem_range.1 hin).trans_le ((h.counts a.target).trans (hmax a.target))

theorem Placed.delete (h : Placed attachments) (p : Attachment → Bool) : Placed (Table.delete attachments p) where
  ids := h.ids.sublist (List.filter_sublist.map _)
  distinct a ha b hb := h.distinct a (Table.mem_delete.1 ha).1 b (Table.mem_delete.1 hb).1
  below a ha := h.below a (Table.mem_delete.1 ha).1

/-- A row of its own, at the next position. -/
theorem Ordered.insert {a : Attachment} (h : Ordered policies attachments) (hid : a.id ∉ attachments.map (·.id))
    (hposition : a.position = (ofTarget attachments a.target).length)
    (hcount : (ofTarget attachments a.target).length < maxCountOf policies a.target) : Ordered policies (attachments ++ [a]) := by
  have hown : ofTarget (attachments ++ [a]) a.target = ofTarget attachments a.target ++ [a] := by simp [ofTarget]
  have hother : ∀ target, a.target ≠ target → ofTarget (attachments ++ [a]) target = ofTarget attachments target := by
    intro target hne
    simp [ofTarget, hne]
  refine ⟨?_, fun target => ?_, fun target => ?_⟩
  · rw [List.map_append, List.nodup_append]
    refine ⟨h.ids, List.nodup_singleton _, fun x hx y hy => ?_⟩
    rw [List.mem_singleton.1 hy]
    rintro rfl
    exact hid hx
  · by_cases htarget : a.target = target
    · rw [← htarget, hown, List.map_append, List.length_append, List.length_singleton, List.range_succ, List.map_singleton, hposition]
      exact (h.contiguous a.target).append_right _
    · rw [hother target htarget]
      exact h.contiguous target
  · by_cases htarget : a.target = target
    · rw [← htarget, hown, List.length_append, List.length_singleton]
      exact hcount
    · rw [hother target htarget]
      exact h.counts target

/-- All the rows of some targets are deleted. -/
theorem Ordered.deleteTargets (h : Ordered policies attachments) {p : Attachment → Bool} (q : AttachmentTarget → Bool)
    (hp : ∀ a ∈ attachments, p a = q a.target) : Ordered policies (Table.delete attachments p) := by
  have hrows : ∀ target, ofTarget (Table.delete attachments p) target = if q target then [] else ofTarget attachments target := by
    intro target
    unfold ofTarget Table.delete
    rw [List.filter_filter]
    split
    · next hq =>
      refine List.filter_eq_nil_iff.2 fun a ha => ?_
      rw [hp a ha]
      by_cases htarget : a.target = target
      · simp [htarget, hq]
      · simp [htarget]
    · next hq =>
      refine List.filter_congr fun a ha => ?_
      rw [hp a ha]
      by_cases htarget : a.target = target
      · simp [htarget, hq]
      · simp [htarget]
  refine ⟨h.ids.sublist (List.filter_sublist.map _), fun target => ?_, fun target => ?_⟩
  · rw [hrows]
    split
    · exact List.Perm.refl _
    · exact h.contiguous target
  · rw [hrows]
    split
    · exact Nat.zero_le _
    · exact h.counts target

theorem map_idxOf_self (h : ids.Nodup) : ids.map (ids.idxOf ·) = List.range ids.length := by
  refine List.ext_getElem (by simp) fun i hi hi' => ?_
  rw [List.getElem_map, List.getElem_range]
  exact h.idxOf_getElem i (by simpa using hi)

/-- The rows of a target after they were rewritten, and those of another. -/
theorem ofTarget_rewrite (hids : ids.Perm ((ofTarget attachments target).map (·.id))) (other : AttachmentTarget) :
    ofTarget (rewriteAttachmentPositions attachments target ids) other =
      if other = target then (ofTarget attachments target).map (placeAt ids) else ofTarget attachments other := by
  have hkeep : ∀ a : Attachment, (if a.target = target then placeAt ids a else a).target = a.target := by
    intro a
    split <;> rfl
  have hrows : ofTarget (attachments.map fun a => if a.target = target then placeAt ids a else a) other =
      (ofTarget attachments other).map fun a => if a.target = target then placeAt ids a else a := by
    unfold ofTarget
    rw [List.filter_map]
    congr 1
    refine List.filter_congr fun a _ => ?_
    rw [Function.comp_apply, hkeep]
  rw [rewriteAttachmentPositions_eq hids, hrows]
  split
  · next heq =>
    rw [heq]
    exact List.map_congr_left fun a ha => if_pos (mem_ofTarget.1 ha).2
  · next hne =>
    refine (List.map_congr_left fun a ha => ?_).trans (List.map_id' _)
    exact if_neg fun htarget => hne ((mem_ofTarget.1 ha).2.symm.trans htarget)

/-- The positions of rows that are placed by a list of their ids. -/
theorem placed_positions (hn : (attachments.map (·.id)).Nodup) (hids : ids.Perm ((ofTarget attachments target).map (·.id))) :
    (((ofTarget attachments target).map (placeAt ids)).map (·.position)).Perm (List.range ((ofTarget attachments target).map (placeAt ids)).length) := by
  have hplaces : ((ofTarget attachments target).map (placeAt ids)).map (·.position) =
      ((ofTarget attachments target).map (·.id)).map (ids.idxOf ·) := by
    rw [List.map_map, List.map_map]
    rfl
  have hlength : ids.length = (ofTarget attachments target).length := hids.length_eq.trans (List.length_map _)
  rw [hplaces, List.length_map, ← hlength, ← map_idxOf_self (hids.nodup_iff.2 (ofTarget_ids hn))]
  exact (hids.map _).symm

/-- Rewritten positions are `0 … n - 1`. -/
theorem Ordered.rewrite (hn : (attachments.map (·.id)).Nodup) (hids : ids.Perm ((ofTarget attachments target).map (·.id)))
    (hothers : ∀ other ≠ target, ((ofTarget attachments other).map (·.position)).Perm (List.range (ofTarget attachments other).length))
    (hcounts : ∀ other, (ofTarget attachments other).length ≤ maxCountOf policies other) :
    Ordered policies (rewriteAttachmentPositions attachments target ids) := by
  refine ⟨?_, fun other => ?_, fun other => ?_⟩
  · have hcolumn : (rewriteAttachmentPositions attachments target ids).map (·.id) = attachments.map (·.id) := by
      rw [rewriteAttachmentPositions_eq hids, List.map_map]
      refine List.map_congr_left fun a _ => ?_
      rw [Function.comp_apply]
      split <;> rfl
    rw [hcolumn]
    exact hn
  · rw [ofTarget_rewrite hids]
    split
    · exact placed_positions hn hids
    · next hne => exact hothers other hne
  · rw [ofTarget_rewrite hids]
    split
    · next heq =>
      rw [List.length_map, heq]
      exact hcounts target
    · exact hcounts other

end Invariant

/-! ### The operations -/

section Operations

variable {policies : List AttachmentPolicy} {db db' : FilesTables} {keys : List String} {uuid : ℕ → String} {now : ℕ}

theorem insertAttachment_eq_ok {attachments attachments' : List Attachment} {a : Attachment} :
    insertAttachment attachments a = .ok attachments' →
      attachments' = attachments ++ [a] ∧ a.id ∉ attachments.map (·.id) := by
  intro h
  unfold insertAttachment at h
  split at h
  · cases h
  · next hnew =>
    refine ⟨(Except.ok.inj h).symm, fun hid => hnew ?_⟩
    obtain ⟨b, hb, hbid⟩ := List.mem_map.1 hid
    exact List.any_eq_true.2 ⟨b, hb, by simp [hbid]⟩

theorem Ordered.prepareUploadTarget {attachments attachments' : List Attachment} {policy : AttachmentPolicy} {target : AttachmentTarget}
    {position : ℕ} (h : Ordered policies attachments)
    (hprepare : prepareUploadTarget attachments (findTargetAttachments attachments target) policy = .ok (attachments', keys, position)) :
    Ordered policies attachments' ∧ position = (ofTarget attachments' target).length ∧ position < policy.maxCount := by
  have hlength : (findTargetAttachments attachments target).length = (ofTarget attachments target).length :=
    findTargetAttachments_perm.length_eq
  unfold Files.prepareUploadTarget at hprepare
  split at hprepare
  · split at hprepare
    · cases hprepare
    · next hfull =>
      simp only [Except.ok.injEq, Prod.mk.injEq] at hprepare
      obtain ⟨rfl, -, rfl⟩ := hprepare
      exact ⟨h, hlength, not_le.1 hfull⟩
  · next hsingle =>
    simp only [Except.ok.injEq, Prod.mk.injEq] at hprepare
    obtain ⟨rfl, -, rfl⟩ := hprepare
    -- the ids of the target's rows are those of no others
    have hrows : ∀ a ∈ attachments, decide (a.id ∈ (findTargetAttachments attachments target).map (·.id)) = decide (a.target = target) := by
      intro a ha
      rw [decide_eq_decide]
      constructor
      · intro hid
        obtain ⟨b, hb, hbid⟩ := List.mem_map.1 hid
        obtain ⟨hb, htarget⟩ := mem_findTargetAttachments.1 hb
        rwa [← List.inj_on_of_nodup_map h.ids hb ha hbid]
      · intro htarget
        exact List.mem_map_of_mem (mem_findTargetAttachments.2 ⟨ha, htarget⟩)
    have hnone : ofTarget (Table.delete attachments fun a => a.id ∈ (findTargetAttachments attachments target).map (·.id)) target = [] := by
      refine List.filter_eq_nil_iff.2 fun a ha htarget => ?_
      obtain ⟨ha, hkept⟩ := Table.mem_delete.1 ha
      rw [hrows a ha, htarget] at hkept
      cases hkept
    refine ⟨h.deleteTargets (fun other => decide (other = target)) hrows, by rw [hnone]; rfl, ?_⟩
    have hone : policy.maxCount = 1 := not_not.1 hsingle
    omega

theorem Ordered.completeUpload {staged : StagedUpload} {uploaderUserId : ℕ} (h : Ordered policies db.attachments)
    (hpolicy : resolve policies staged.policy.objectType staged.policy.associationType = some staged.policy)
    (hcomplete : completeUpload db staged uploaderUserId uuid now = .ok (db', keys)) : Ordered policies db'.attachments := by
  simp only [Files.completeUpload, Result.bind_eq_ok, Result.orThrow_eq_ok, Result.require_eq_ok, Result.pure_eq_ok] at hcomplete
  obtain ⟨_, -, -, -, ⟨attachments, keys', position⟩, hprepare, attachments', hinsert, _, -, hcomplete⟩ := hcomplete
  obtain ⟨rfl, -⟩ := Prod.mk.inj hcomplete
  obtain ⟨hordered, hposition, hcount⟩ := h.prepareUploadTarget hprepare
  obtain ⟨rfl, hid⟩ := insertAttachment_eq_ok hinsert
  have hmax : maxCountOf policies staged.targetOf = staged.policy.maxCount := by
    rw [maxCountOf, StagedUpload.targetOf, hpolicy]
    rfl
  have hroom : (ofTarget attachments staged.targetOf).length < maxCountOf policies staged.targetOf := by
    rw [hmax, ← hposition]
    exact hcount
  exact hordered.insert hid hposition hroom

/-- The row of an attachment that is detached is gone from its target. -/
theorem ofTarget_delete {attachments : List Attachment} {a : Attachment} (hn : (attachments.map (·.id)).Nodup) (ha : a ∈ attachments)
    {other : AttachmentTarget} (hother : other ≠ a.target) :
    ofTarget (Table.delete attachments (·.id = a.id)) other = ofTarget attachments other := by
  unfold ofTarget Table.delete
  rw [List.filter_filter]
  refine List.filter_congr fun b hb => ?_
  by_cases htarget : b.target = other
  · have hne : b.id ≠ a.id := fun hid => hother (htarget.symm.trans (congrArg _ (List.inj_on_of_nodup_map hn hb ha hid)))
    simp [htarget, hne]
  · simp [htarget]

theorem Ordered.detach {attachmentId : String} {objectType : AttachmentObjectType} {objectId : ℕ} (h : Ordered policies db.attachments)
    (hdetach : detach db attachmentId objectType objectId uuid now = .ok (db', keys)) : Ordered policies db'.attachments := by
  simp only [Files.detach, Result.bind_eq_ok, Result.orThrow_eq_ok, Result.pure_eq_ok] at hdetach
  obtain ⟨attachment, hfind, _, -, hdetach⟩ := hdetach
  obtain ⟨rfl, -⟩ := Prod.mk.inj hdetach
  have hmem : attachment ∈ db.attachments := List.mem_of_find?_eq_some hfind
  refine Ordered.rewrite (h.ids.sublist (List.filter_sublist.map _)) (findTargetAttachments_perm.map _) (fun other hother => ?_) fun other => ?_
  · rw [ofTarget_delete h.ids hmem hother]
    exact h.contiguous other
  · exact ((List.filter_sublist.filter _).length_le).trans (h.counts other)

/-- A request that lists the current ids once each is accepted; any other is refused. -/
theorem reorder_eq (db : FilesTables) (hn : (db.attachments.map (·.id)).Nodup) (target : AttachmentTarget) (ids : List String) :
    reorder db target ids = if ids.Perm ((findTargetAttachments db.attachments target).map (·.id))
      then .ok { db with attachments := rewriteAttachmentPositions db.attachments target ids } else .error .attachmentOrderInvalid := by
  set current := findTargetAttachments db.attachments target with hcurrent
  have hcurrentNodup : (current.map (·.id)).Nodup := (findTargetAttachments_perm.map _).nodup_iff.2 (ofTarget_ids hn)
  unfold reorder
  rw [← hcurrent]
  dsimp only
  split
  · next hinvalid =>
    rw [if_neg]
    intro hperm
    have hdedup : ids.dedup = ids := List.dedup_eq_self.2 (hperm.nodup_iff.2 hcurrentNodup)
    have hlength : ids.length = current.length := hperm.length_eq.trans (List.length_map _)
    have hall : ∀ a ∈ current, a.id ∈ ids := fun a ha => hperm.mem_iff.2 (List.mem_map_of_mem ha)
    simp [hdedup, hlength] at hinvalid
    obtain ⟨a, ha, hnot⟩ := hinvalid
    exact hnot (hall a ha)
  · next hvalid =>
    simp only [Bool.or_eq_true, decide_eq_true_eq, List.any_eq_true, not_or, not_exists, not_and, not_not] at hvalid
    obtain ⟨⟨hdedup, hlength⟩, hall⟩ := hvalid
    rw [if_pos]
    have hsubset : current.map (·.id) ⊆ ids := by
      intro id hid
      obtain ⟨a, ha, rfl⟩ := List.mem_map.1 hid
      exact hall a ha
    have hle : ids.length ≤ (current.map (·.id)).length := by
      rw [List.length_map]
      omega
    exact ((List.subperm_of_subset hcurrentNodup hsubset).perm_of_length_le hle).symm

theorem Ordered.reorder {target : AttachmentTarget} {ids : List String} (h : Ordered policies db.attachments)
    (hreorder : reorder db target ids = .ok db') : Ordered policies db'.attachments := by
  rw [reorder_eq db h.ids] at hreorder
  split at hreorder
  · next hids =>
    obtain rfl := Except.ok.inj hreorder
    exact Ordered.rewrite h.ids (hids.trans (findTargetAttachments_perm.map _)) (fun other _ => h.contiguous other) h.counts
  · cases hreorder

theorem Ordered.detachRoom {roomId : ℕ} (h : Ordered policies db.attachments) (hdetach : detachRoom db roomId uuid now = .ok db') :
    Ordered policies db'.attachments := by
  simp only [Files.detachRoom, Result.bind_eq_ok, Result.orThrow_eq_ok, Result.pure_eq_ok] at hdetach
  obtain ⟨_, -, rfl⟩ := hdetach
  exact h.deleteTargets (fun target => target.objectType = .room && target.objectId = roomId) fun _ _ => rfl

end Operations

/-! ### Runs -/

/-- `RoomImagesService.upload` resolves the policy of its pair. -/
def Resolved (maxAlbumCount : ℕ) (_ : Uploads) : UploadAction → Prop
  | .safeguard policy .. => resolve (createAttachmentPolicies maxAlbumCount) .room policy.associationType = some policy
  | _ => True

instance (maxAlbumCount : ℕ) (s : Uploads) (a : UploadAction) : Decidable (Resolved maxAlbumCount s a) :=
  match a with
  | .safeguard policy .. =>
    inferInstanceAs (Decidable (resolve (createAttachmentPolicies maxAlbumCount) .room policy.associationType = some policy))
  | .createRoom .. | .putObject .. | .latePut .. | .abandon .. | .complete .. | .detach .. | .reorder .. | .deleteRoom .. | .deleteDetached ..
  | .deleteDetachedTask .. | .cleanup .. => isTrue trivial

/-- What every step keeps. -/
structure Uploads.Positions (maxAlbumCount : ℕ) (s : Uploads) : Prop where
  policies : ∀ u ∈ s.uploads,
    resolve (createAttachmentPolicies maxAlbumCount) u.staged.policy.objectType u.staged.policy.associationType = some u.staged.policy
  ordered : Ordered (createAttachmentPolicies maxAlbumCount) s.attachments

section Steps

variable {maxAlbumCount : ℕ} {s s' : Uploads}

theorem resolve_of_room {policy : AttachmentPolicy} {policies : List AttachmentPolicy}
    (h : resolve policies .room policy.associationType = some policy) :
    resolve policies policy.objectType policy.associationType = some policy := by
  have hpair := List.find?_some h
  simp only [Bool.and_eq_true, decide_eq_true_eq] at hpair
  rw [hpair.1]
  exact h

/-- A phase says nothing about what is uploaded. -/
theorem Uploads.Positions.setPhase (h : s.Positions maxAlbumCount) (objectKey : String) (phase : UploadPhase) :
    ∀ u ∈ s.setPhase objectKey phase, resolve (createAttachmentPolicies maxAlbumCount) u.staged.policy.objectType
      u.staged.policy.associationType = some u.staged.policy := by
  intro u hu
  obtain ⟨v, hv, ⟨-, rfl⟩ | ⟨-, rfl⟩⟩ := Table.mem_update.1 hu
  · exact h.policies v hv
  · exact h.policies v hv

theorem Uploads.Positions.transact {outcome : QueryOutcome} {result : Except FilesError (FilesTables × List String)}
    (h : s.Positions maxAlbumCount) (hresult : ∀ db keys, result = .ok (db, keys) → Ordered (createAttachmentPolicies maxAlbumCount) db.attachments) :
    (s.transact outcome result).Positions maxAlbumCount := by
  cases result with
  | error e => cases outcome <;> exact h
  | ok r =>
    obtain ⟨db, keys⟩ := r
    have hdb := hresult db keys rfl
    cases outcome with
    | failed => exact h
    | lostReply => exact ⟨h.policies, hdb⟩
    | committed => exact ⟨h.policies, hdb⟩

theorem Uploads.Positions.step {a : UploadAction} (h : s.Positions maxAlbumCount) (hC : Resolved maxAlbumCount s a)
    (he : s.exec a = some s') : s'.Positions maxAlbumCount := by
  cases a with
  | createRoom roomId =>
    simp only [Uploads.exec] at he
    split at he
    · cases he
    · obtain rfl := Option.some.inj he
      exact ⟨h.policies, h.ordered⟩
  | safeguard policy roomId uploaderUserId objectKey mimeType body taskId graceMs now outcome =>
    simp only [Uploads.exec] at he
    split at he
    · cases he
    split at he
    · exact Option.some.inj he ▸ h
    · exact Option.some.inj he ▸ h
    · obtain rfl := Option.some.inj he
      refine ⟨fun u hu => ?_, h.ordered⟩
      rcases List.mem_append.1 hu with hu | hu
      · exact h.policies u hu
      · rw [List.mem_singleton.1 hu]
        exact resolve_of_room hC
  | putObject objectKey outcome =>
    obtain ⟨u, -, rfl⟩ := Option.map_eq_some_iff.1 he
    cases outcome <;> exact ⟨h.setPhase _ _, h.ordered⟩
  | latePut objectKey =>
    obtain ⟨p, -, rfl⟩ := Option.map_eq_some_iff.1 he
    exact ⟨h.policies, h.ordered⟩
  | abandon objectKey =>
    obtain rfl := Option.some.inj he
    exact ⟨h.setPhase _ _, h.ordered⟩
  | complete objectKey uuid now outcome =>
    obtain ⟨u, hu, rfl⟩ := Option.map_eq_some_iff.1 he
    have hpolicy := h.policies u (upload_eq_some hu).1
    have hcommit := @Uploads.Positions.transact maxAlbumCount s outcome
      (do s.lockRoom u.staged.objectId; completeUpload s.tables u.staged u.uploaderUserId uuid now) h fun db keys hr =>
        h.ordered.completeUpload hpolicy (lockRoom_eq_ok hr)
    exact ⟨h.setPhase _ _, hcommit.ordered⟩
  | detach roomId attachmentId uuid now outcome =>
    obtain rfl := Option.some.inj he
    exact h.transact fun db keys hr => h.ordered.detach (lockRoom_eq_ok hr)
  | reorder roomId attachmentIds outcome =>
    obtain rfl := Option.some.inj he
    refine h.transact fun db keys hr => ?_
    obtain ⟨db', hdb, hr⟩ := Result.bind_eq_ok.1 (lockRoom_eq_ok hr)
    obtain ⟨rfl, rfl⟩ := Prod.mk.inj (Result.pure_eq_ok.1 hr)
    exact h.ordered.reorder hdb
  | deleteRoom roomId uuid now outcome =>
    simp only [Uploads.exec] at he
    split at he
    · exact Option.some.inj he ▸ h
    · exact Option.some.inj he ▸ h
    · next hr =>
      obtain rfl := Option.some.inj he
      obtain ⟨-, -, hr⟩ := Result.bind_eq_ok.1 hr
      exact ⟨h.policies, h.ordered.detachRoom hr⟩
  | deleteDetached objectKey outcome =>
    simp only [Uploads.exec] at he
    split at he
    · cases he
    · cases outcome <;> exact Option.some.inj he ▸ ⟨h.policies, h.ordered⟩
  | deleteDetachedTask objectKey outcome =>
    simp only [Uploads.exec] at he
    split at he
    · cases he
    · split at he <;> exact Option.some.inj he ▸ ⟨h.policies, h.ordered⟩
  | cleanup a =>
    obtain ⟨store, -, rfl⟩ := Option.map_eq_some_iff.1 he
    exact ⟨h.policies, h.ordered⟩

theorem positions_of_reachable (h : uploads.Reachable (Resolved maxAlbumCount) s) : s.Positions maxAlbumCount := by
  apply h.invariant
  · rintro s rfl
    refine ⟨fun u hu => absurd hu List.not_mem_nil, List.nodup_nil, fun target => List.Perm.refl _, fun target => Nat.zero_le _⟩
  · exact fun s a s' hs hC he => hs.step hC he

theorem maxCountOf_le (h : maxAlbumCount ≤ positionRewriteOffset) (target : AttachmentTarget) :
    maxCountOf (createAttachmentPolicies maxAlbumCount) target ≤ positionRewriteOffset := by
  obtain ⟨objectType, objectId, associationType⟩ := target
  cases objectType <;> cases associationType
  · exact show 1 ≤ 1000 by decide
  · exact h
  · exact Nat.zero_le _
  · exact Nat.zero_le _
  · exact Nat.zero_le _
  · exact Nat.zero_le _

end Steps

/-! ### Reading in order -/

section Reading

variable {attachments : List Attachment} {target : AttachmentTarget} {ids : List String}

theorem beforeAttachment_total : Std.Total beforeAttachment := by
  refine ⟨fun a b => ?_⟩
  rcases lt_trichotomy a.position b.position with h | h | h
  · exact .inl (.inl h)
  · rcases String.le_total a.id b.id with hid | hid
    · exact .inl (.inr ⟨h, hid⟩)
    · exact .inr (.inr ⟨h.symm, hid⟩)
  · exact .inr (.inl h)

theorem beforeAttachment_trans : IsTrans Attachment beforeAttachment := by
  refine ⟨fun a b c hab hbc => ?_⟩
  rcases hab with hab | ⟨hab, hid⟩
  · rcases hbc with hbc | ⟨hbc, -⟩
    · exact .inl (hab.trans hbc)
    · exact .inl (hbc ▸ hab)
  · rcases hbc with hbc | ⟨hbc, hid'⟩
    · exact .inl (hab ▸ hbc)
    · exact .inr ⟨hab.trans hbc, String.le_trans hid hid'⟩

/-- Positions without a gap are read in order. -/
theorem findTargetAttachments_positions
    (h : ((ofTarget attachments target).map (·.position)).Perm (List.range (ofTarget attachments target).length)) :
    (findTargetAttachments attachments target).map (·.position) = List.range (findTargetAttachments attachments target).length := by
  have := beforeAttachment_total
  have := beforeAttachment_trans
  have hperm : ((findTargetAttachments attachments target).map (·.position)).Perm (List.range (findTargetAttachments attachments target).length) := by
    rw [findTargetAttachments_perm.length_eq]
    exact (findTargetAttachments_perm.map _).trans h
  have hsorted : ((findTargetAttachments attachments target).map (·.position)).Pairwise (· ≤ ·) := by
    rw [List.pairwise_map]
    refine (List.pairwise_insertionSort beforeAttachment _).imp fun hab => ?_
    rcases hab with hlt | ⟨heq, -⟩
    · exact hlt.le
    · exact heq.le
  exact hperm.eq_of_pairwise (fun _ _ _ _ => le_antisymm) hsorted List.pairwise_le_range

/-- The order that was asked for is the one that is read. -/
theorem findTargetAttachments_rewrite (hn : (attachments.map (·.id)).Nodup) (hids : ids.Perm ((ofTarget attachments target).map (·.id))) :
    (findTargetAttachments (rewriteAttachmentPositions attachments target ids) target).map (·.id) = ids := by
  set found := findTargetAttachments (rewriteAttachmentPositions attachments target ids) target with hfound
  have hrows : ofTarget (rewriteAttachmentPositions attachments target ids) target = (ofTarget attachments target).map (placeAt ids) := by
    rw [ofTarget_rewrite hids, if_pos rfl]
  have hperm : found.Perm ((ofTarget attachments target).map (placeAt ids)) := hrows ▸ findTargetAttachments_perm
  have hlength : found.length = ids.length := by
    rw [hperm.length_eq, List.length_map, hids.length_eq, List.length_map]
  have hpositions : found.map (·.position) = List.range found.length := by
    apply findTargetAttachments_positions
    rw [hrows]
    exact placed_positions hn hids
  refine List.ext_getElem (by rw [List.length_map, hlength]) fun i hi hi' => ?_
  have hi'' : i < found.length := hlength ▸ hi'
  have hposition : found[i].position = i := by
    have hat := List.getElem_of_eq hpositions (by simpa using hi'')
    rwa [List.getElem_map, List.getElem_range] at hat
  obtain ⟨a, ha, hplaced⟩ := List.mem_map.1 (hperm.mem_iff.1 (List.getElem_mem hi''))
  have hid : found[i].id = a.id := hplaced ▸ rfl
  have hidx : ids.idxOf a.id = i := by rw [← hposition, ← hplaced]; rfl
  have hmem : a.id ∈ ids := hids.mem_iff.2 (List.mem_map_of_mem ha)
  rw [List.getElem_map, hid]
  have hget := List.getElem_idxOf (List.idxOf_lt_length_of_mem hmem)
  simp only [hidx] at hget
  exact hget.symm

end Reading

/-! ### The results -/

/-- The order of the attachments of a state, and what its requests do to it. -/
structure AttachmentOrder (maxAlbumCount : ℕ) (s : Uploads) : Prop where
  positions : ∀ target, (findTargetAttachments s.attachments target).map (·.position) =
    List.range (findTargetAttachments s.attachments target).length
  counts : ∀ target, (findTargetAttachments s.attachments target).length ≤ maxCountOf (createAttachmentPolicies maxAlbumCount) target
  singleton : ∀ roomId, (findTargetAttachments s.attachments ⟨.room, roomId, .thumbnail⟩).length ≤ 1
  /-- A request that lists the current ids once each is their new order. -/
  accepted : ∀ target ids, ids.Perm ((findTargetAttachments s.attachments target).map (·.id)) →
    ∃ attachments, reorder s.tables target ids = .ok ⟨attachments, s.store.tasks⟩ ∧
      (findTargetAttachments attachments target).map (·.id) = ids ∧
      ∀ other ≠ target, findTargetAttachments attachments other = findTargetAttachments s.attachments other
  /-- Any other is refused and changes nothing. -/
  refused : ∀ target ids, ¬ ids.Perm ((findTargetAttachments s.attachments target).map (·.id)) →
    reorder s.tables target ids = .error .attachmentOrderInvalid
  unchanged : ∀ roomId ids outcome, ¬ ids.Perm ((findTargetAttachments s.attachments ⟨.room, roomId, .album⟩).map (·.id)) →
    uploads.exec s (.reorder roomId ids outcome) = some s
  /-- No row of a reorder is refused. -/
  reorderRows : ∀ target ids shifts placements, ids.Perm ((findTargetAttachments s.attachments target).map (·.id)) →
    shifts.Perm ids → placements.Perm ids →
    rewriteByRow s.attachments target ids shifts placements = some (rewriteAttachmentPositions s.attachments target ids)
  /-- No row of the renumbering after a deletion is refused. -/
  detachRows : ∀ a ∈ s.attachments, ∀ shifts placements,
    let rest := Table.delete s.attachments (·.id = a.id)
    let ids := (findTargetAttachments rest a.target).map (·.id)
    shifts.Perm ids → placements.Perm ids → rewriteByRow rest a.target ids shifts placements = some (rewriteAttachmentPositions rest a.target ids)

/-- **Attachments stay in order.** After any run of uploads, replacements, deletions and reorders the attachments of
every target are at the positions `0 … n - 1`, and no more than its policy allows; a reorder is exactly what was
asked for or changes nothing; and no row of a rewrite is refused, whatever the order the engine visits the rows in. -/
theorem attachments_ordered (maxAlbumCount : ℕ) (hmax : maxAlbumCount ≤ 1000) (s : Uploads)
    (h : uploads.Reachable (Resolved maxAlbumCount) s) : AttachmentOrder maxAlbumCount s := by
  have ho : Ordered (createAttachmentPolicies maxAlbumCount) s.attachments := (positions_of_reachable h).ordered
  have hlimits : ∀ target, maxCountOf (createAttachmentPolicies maxAlbumCount) target ≤ positionRewriteOffset := maxCountOf_le hmax
  have hcounts : ∀ target, (findTargetAttachments s.attachments target).length ≤ maxCountOf (createAttachmentPolicies maxAlbumCount) target := by
    intro target
    rw [findTargetAttachments_perm.length_eq]
    exact ho.counts target
  have hfound : ∀ target, ((findTargetAttachments s.attachments target).map (·.id)).Perm ((ofTarget s.attachments target).map (·.id)) :=
    fun target => findTargetAttachments_perm.map _
  refine ⟨fun target => findTargetAttachments_positions (ho.contiguous target), hcounts, fun roomId => hcounts _, fun target ids hids => ?_,
    fun target ids hids => ?_, fun roomId ids outcome hids => ?_, fun target ids shifts placements hids hshifts hplacements => ?_,
    fun a ha shifts placements => ?_⟩
  · have hids' := hids.trans (hfound target)
    refine ⟨_, (reorder_eq s.tables ho.ids target ids).trans (if_pos hids), findTargetAttachments_rewrite ho.ids hids', fun other hother => ?_⟩
    have hother' := ofTarget_rewrite hids' other
    rw [if_neg hother] at hother'
    exact congrArg (List.insertionSort beforeAttachment) hother'
  · exact (reorder_eq s.tables ho.ids target ids).trans (if_neg hids)
  · have hrefused : reorder s.tables ⟨.room, roomId, .album⟩ ids = .error .attachmentOrderInvalid :=
      (reorder_eq s.tables ho.ids _ ids).trans (if_neg hids)
    have herror : ∃ e, (do s.lockRoom roomId; return (← reorder s.tables ⟨.room, roomId, .album⟩ ids, []) :
        Except FilesError (FilesTables × List String)) = .error e := by
      rw [hrefused]
      cases s.lockRoom roomId with
      | error e => exact ⟨e, rfl⟩
      | ok _ => exact ⟨_, rfl⟩
    obtain ⟨e, he⟩ := herror
    show some (s.transact outcome (do s.lockRoom roomId; return (← reorder s.tables ⟨.room, roomId, .album⟩ ids, []))) = some s
    rw [he]
    cases outcome <;> rfl
  · have hlength : ids.length ≤ positionRewriteOffset := by
      rw [hids.length_eq, List.length_map]
      exact (hcounts target).trans (hlimits target)
    exact rewriteByRow_eq_some (ho.placed hlimits) (hids.trans (hfound target)) hlength (hshifts.trans (hids.trans (hfound target))) hplacements
  · intro rest ids hshifts hplacements
    have hids : ids.Perm ((ofTarget rest a.target).map (·.id)) := findTargetAttachments_perm.map _
    have hlength : ids.length ≤ positionRewriteOffset := by
      rw [hids.length_eq, List.length_map]
      exact ((List.filter_sublist.filter _).length_le.trans (ho.counts a.target)).trans (hlimits a.target)
    exact rewriteByRow_eq_some ((ho.placed hlimits).delete _) hids hlength (hshifts.trans hids) hplacements

/-- An image of an album, uploaded. -/
def albumImage (key taskId attachmentId : String) : List UploadAction :=
  [.safeguard ⟨.room, .album, 20⟩ 7 1 key "image/png" [137, 80, 78, 71] taskId 60 0 .committed, .putObject key .done,
    .complete key (fun _ => attachmentId) 10 .committed]

/-- Three images of an album; the order is reversed and the one in the middle deleted. -/
def albumRun : List UploadAction :=
  .createRoom 7 :: albumImage "a" "task-a" "attachment-a" ++ albumImage "b" "task-b" "attachment-b" ++
    albumImage "c" "task-c" "attachment-c" ++
    [.reorder 7 ["attachment-c", "attachment-b", "attachment-a"] .committed, .detach 7 "attachment-b" (fun _ => "task-d") 20 .committed]

theorem albumRun_isSome : (uploads.check (Resolved 20) .empty albumRun).isSome = true := by decide

theorem attachments_ordered_albumRun :
    let s := (uploads.check (Resolved 20) .empty albumRun).get albumRun_isSome
    (findTargetAttachments s.attachments ⟨.room, 7, .album⟩).map (fun a => (a.id, a.position)) =
      [("attachment-c", 0), ("attachment-a", 1)] ∧ AttachmentOrder 20 s := by
  exact ⟨by decide, attachments_ordered 20 (by decide) _ (.of_check (.init rfl) (Option.some_get albumRun_isSome).symm)⟩

end HotelBackend.Files
