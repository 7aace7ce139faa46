import HotelBackend.Notifications.AttemptBudget
import HotelBackend.Reports.Agreement

/-!
# The budget of an export

A run costs an attempt of its event. As with the mails the claim does not look at the
count, and a duplicate of a job runs again: `sparesRuns` is what the steps would have to
make sure of.
-/

namespace HotelBackend.Reports

open HotelBackend.Common
open HotelBackend.Theory
open HotelBackend.Outbox
open HotelBackend.Files
open HotelBackend.Notifications

/-- A claim that has run is not given back, no claim recovers an event whose runs are spent, and a claim runs once. -/
def sparesRuns (config : ReportsConfig) (s : RoomExports) : ExportAction → Bool
  | .statement now st => sparesRecovered .roomExport config.maxAttempts s.runs s.outbox.rows now st &&
      match st with
      | .release .roomExport key .. => !(s.outbox.rows.any fun e => e.eventType ∈ roomExportEventTypes && key.holds e) || key ∉ s.runs
      | _ => true
  | .start _ data now outcome => outcome ≠ .committed || (claim s.tables data now).isNone || data ∉ s.runs
  | _ => true

/-- The step claims a job. -/
def ExportAction.isStart : ExportAction → Bool
  | start .. => true
  | _ => false

/-- The runs of the events, in their budget. -/
structure RoomExports.Sparing (config : ReportsConfig) (s : RoomExports) : Prop where
  exports : s.Agreed
  budget : Budgeted .roomExport config.maxAttempts s.outbox s.runs

namespace RoomExports

section Steps

variable {config : ReportsConfig} {sha256Hex : Buffer → String} {s s' : RoomExports}

theorem runs_of_exec {a : ExportAction} (ha : a.isStart = false) (h : s.exec config sha256Hex a = some s') : s'.runs = s.runs := by
  cases a with
  | start => cases ha
  | create eventId jobId requestedBy filters now =>
    simp only [exec] at h
    split at h
    · cases h
    · obtain ⟨outbox, -, rfl⟩ := Option.map_eq_some_iff.1 h
      rfl
  | statement now st =>
    simp only [exec] at h
    split at h
    · cases h
    · obtain ⟨outbox, -, rfl⟩ := Option.map_eq_some_iff.1 h
      rfl
  | read worker rows =>
    simp only [exec, Option.bind_eq_bind, Option.bind_eq_some_iff] at h
    obtain ⟨c, -, h⟩ := h
    split at h
    · exact Option.some.inj h ▸ rfl
    · exact Option.some.inj h ▸ rfl
    · cases h
  | renew worker now outcome =>
    simp only [exec, Option.bind_eq_bind, Option.bind_eq_some_iff] at h
    obtain ⟨c, -, next, -, h⟩ := h
    obtain rfl := Option.some.inj h
    cases outcome with
    | failed | lostReply => rfl
    | committed =>
      simp only [RoomExports.renew]
      split
      · rfl
      · split <;> rfl
  | generate worker generation =>
    simp only [exec, Option.bind_eq_bind, Option.bind_eq_some_iff] at h
    obtain ⟨c, -, h⟩ := h
    split at h
    case h_2 => cases h
    split at h <;> exact Option.some.inj h ▸ rfl
  | insertUploadSafeguard worker taskId now outcome =>
    simp only [exec, Option.bind_eq_bind, Option.bind_eq_some_iff] at h
    obtain ⟨c, -, h⟩ := h
    split at h
    case h_2 => cases h
    obtain rfl := Option.some.inj h
    unfold RoomExports.insertUploadSafeguard
    split <;> rfl
  | upload worker outcome =>
    simp only [exec, Option.bind_eq_bind, Option.bind_eq_some_iff] at h
    obtain ⟨c, -, h⟩ := h
    split at h
    case h_2 => cases h
    obtain rfl := Option.some.inj h
    cases outcome <;> rfl
  | latePut objectKey =>
    obtain ⟨p, -, rfl⟩ := Option.map_eq_some_iff.1 h
    rfl
  | complete worker now outcome =>
    simp only [exec, Option.bind_eq_bind, Option.bind_eq_some_iff] at h
    obtain ⟨c, -, h⟩ := h
    split at h
    case h_2 => cases h
    obtain rfl := Option.some.inj h
    unfold RoomExports.complete
    split <;> rfl
  | recordFailure worker random now outcome =>
    simp only [exec, Option.bind_eq_bind, Option.bind_eq_some_iff] at h
    obtain ⟨c, -, h⟩ := h
    split at h
    case h_2 => cases h
    obtain rfl := Option.some.inj h
    unfold RoomExports.recordFailure
    dsimp only
    split <;> rfl
  | crash worker => exact Option.some.inj h ▸ rfl
  | cleanup a =>
    obtain ⟨store, -, rfl⟩ := Option.map_eq_some_iff.1 h
    rfl

theorem frugal_of_decides {data : ClaimKey} {now : ℕ} {st : Statement} {u : Update} {set : ExportJob → ExportJob} {starts : List ClaimKey}
    {o : State} (h : Decides config data now st u set) : Frugal .roomExport config.maxAttempts starts o now st := by
  cases st with
  | claim => cases h.update
  | release => cases h.release
  | deliveryRetry => exact fun hfam => by cases hfam
  | exportRetry => exact fun _ => Option.some.inj h.key ▸ h.retry rfl
  | lifecycleRetry | redrive => exact fun hfam => by cases hfam
  | _ => trivial

/-- An attempt that starts holds its event. -/
theorem Sparing.start {worker : ℕ} {data : ClaimKey} {now : ℕ} {outcome : QueryOutcome} (hi : s.Sparing config)
    (hc : sparesRuns config s (.start worker data now outcome) = true)
    (h : s.exec config sha256Hex (.start worker data now outcome) = some s') :
    Budgeted .roomExport config.maxAttempts s'.outbox s'.runs := by
  simp only [exec] at h
  split at h
  · cases h
  split at h
  · exact Option.some.inj h ▸ hi.budget
  · exact Option.some.inj h ▸ hi.budget
  case h_3 hclaim =>
    obtain ⟨-, -, rfl⟩ := claim_eq_some hclaim
    exact Option.some.inj h ▸ hi.budget
  case h_4 hclaim =>
    simp only [sparesRuns, hclaim, Option.isNone_some, Bool.or_false, Bool.or_eq_true, decide_eq_true_eq] at hc
    have hnew := hc.resolve_left fun hne => hne rfl
    obtain ⟨⟨e, he, -, hholds, -⟩, -, rfl⟩ := claim_eq_some hclaim
    exact Option.some.inj h ▸ hi.budget.start hi.exports.outbox hnew he hholds

theorem Sparing.step {a : ExportAction} (hi : s.Sparing config) (hmax : 0 < config.maxAttempts) (hc : sparesRuns config s a = true)
    (h : s.exec config sha256Hex a = some s') : s'.Sparing config := by
  have hexports := hi.exports.step h
  have hquiet : ∀ now st, a.isStart = false → s.outbox.exec now st = some s'.outbox →
      Frugal .roomExport config.maxAttempts s.runs s.outbox now st → s'.Sparing config := by
    intro now st ha hexec hf
    exact ⟨hexports, runs_of_exec ha h ▸ hi.budget.exec hi.exports.outbox hmax hf hexec⟩
  cases ha : a.isStart with
  | true =>
    cases a with
    | start worker data now outcome => exact ⟨hexports, hi.start hc h⟩
    | _ => cases ha
  | false =>
    cases effect_of_exec h with
    | idle hout => exact ⟨hexports, hout ▸ runs_of_exec ha h ▸ hi.budget⟩
    | created _ hexec => exact hquiet _ _ ha hexec trivial
    | @statement now st _ hst hexec =>
      simp only [sparesRuns, Bool.and_eq_true] at hc
      refine hquiet _ _ ha hexec (frugal_of_sparesRecovered hc.1 (fun key hr hfam hkey heffect => ?_) fun hfam => ?_)
      · cases st with
        | release family key' =>
          obtain rfl := Option.some.inj hfam
          obtain rfl := Option.some.inj hkey
          obtain ⟨e, he, htype, hholds⟩ := heffect
          have htype : e.eventType ∈ roomExportEventTypes := htype
          have hany : (s.outbox.rows.any fun e => e.eventType ∈ roomExportEventTypes && key'.holds e) = true :=
            List.any_eq_true.2 ⟨e, he, by rw [decide_eq_true htype, hholds, Bool.and_self]⟩
          simpa [hany] using hc.2
        | _ => cases hr
      · cases st with
        | exportRenew | exportComplete | exportRetry | exportFail => cases hst
        | deliverySent | deliveryRetry | deliveryFailed | deliveryRenew | redrive | lifecyclePublished | lifecycleRetry
        | lifecycleFailed | insert => cases hfam
        | claim | release => exact ⟨rfl, fun hr => absurd hr Bool.false_ne_true⟩
    | started => cases ha
    | renewed hexec => exact hquiet _ _ ha hexec trivial
    | decided _ hd _ hout => exact hquiet _ _ ha (hout ▸ exec_of_update hd.update) (frugal_of_decides hd)

theorem sparing_of_reachable (hmax : 0 < config.maxAttempts)
    (h : (exports config sha256Hex).Reachable (fun s a => sparesRuns config s a = true) s) : s.Sparing config := by
  refine h.invariant ?_ fun s a s' hi hc he => hi.step hmax hc he
  rintro s rfl
  have hempty : (exports config sha256Hex).Reachable (fun _ _ => True) .empty := .init rfl
  have hnil : ∀ {α : Type} {P : α → Prop}, ∀ x ∈ ([] : List α), P x := fun _ hx => absurd hx List.not_mem_nil
  exact ⟨agreed_of_reachable hempty, hnil, hnil⟩

end Steps

end RoomExports

/-! ### Both budgets -/

/-- A run that dies with its worker. -/
def deadRun (claimToken : String) (attempt now : ℕ) : List ExportAction :=
  [.statement now (.claim .roomExport 10 180000 claimToken (fun _ => false) fun _ => false),
   .start 0 ⟨"event", claimToken, attempt⟩ (now + 10) .committed, .crash 0]

/-- Each run dies, and the event is recovered when its lease is over. -/
def deadRuns : List ExportAction :=
  .create "event" "job" 1 (.obj []) 0 :: deadRun "first" 1 100 ++ deadRun "second" 2 180000200 ++ deadRun "third" 3 360000300 ++
    deadRun "fourth" 4 540000400

end HotelBackend.Reports
