import HotelBackend.Outbox.Numbering
import HotelBackend.Notifications.Agreement

/-!
# The hand-off to the queue

A claim is handed to the queue under the id of its event and the number of its attempt, and
the queue ignores an add under an id it holds. `HandOff` says that a claim the queue said it
took is one it took. A number is used twice after a release of a claim that did reach the
queue, and after a redrive; in the runs where neither takes effect, `HandOff` is kept.
-/

namespace HotelBackend.Notifications

open HotelBackend.Common
open HotelBackend.Theory
open HotelBackend.Outbox
open HotelBackend.Files (CallOutcome QueryOutcome)

/-! ### Job ids -/

/-- A job id tells the event and the attempt. -/
theorem notificationJobId_inj {c d : ClaimKey} : notificationJobId c = notificationJobId d ↔ c.id = d.id ∧ c.attempt = d.attempt := by
  constructor
  · intro h
    have hchars : ∀ k : ClaimKey, (notificationJobId k).toList = k.id.toList ++ '-' :: (toString k.attempt).toList := by
      intro k
      simp only [notificationJobId, String.toList_append, List.append_assoc]
      rfl
    have hmark : ∀ n : ℕ, '-' ∉ (toString n).toList := fun n => not_mem_toString n (by decide)
    obtain ⟨hid, hatt⟩ := append_mark_inj (hmark _) (hmark _) ((hchars c).symm.trans ((congrArg String.toList h).trans (hchars d)))
    exact ⟨String.toList_injective hid, toString_injective (String.toList_injective hatt)⟩
  · rintro ⟨hid, hatt⟩
    rw [notificationJobId, notificationJobId, hid, hatt]

/-! ### The property -/

/-- A claim is handed over under a job id of its own. -/
structure HandOff (s : Mail) : Prop where
  /-- Two claims of an event, neither given back, have different job ids. -/
  identity : ∀ c ∈ s.tried, c ∉ s.released → ∀ d ∈ s.tried, d ∉ s.released → c.id = d.id →
    notificationJobId c = notificationJobId d → c = d
  /-- A claim given back was never enqueued: no add of it reached the queue, or will. -/
  released : ∀ c ∈ s.released, c ∉ s.queue.reached ∧ c ∉ s.queue.late
  /-- What the queue said it took is what it took. -/
  received : ∀ c ∈ s.acknowledged, c ∈ s.queue.received

/-- The statement of a release takes effect. -/
def takesEffect (s : Mail) (key : ClaimKey) (outcome : QueryOutcome) : Bool :=
  outcome ≠ .failed && s.outbox.rows.any fun e => e.eventType ∈ notificationEventTypes && key.holds e

/-- No number is used again: a claim is given back only if no add of it reached the queue, or will, and no
redrive starts a count over. -/
def keepsNumbers (s : Mail) : MailAction → Bool
  | .release key _ _ outcome => !takesEffect s key outcome || (key ∉ s.queue.reached && key ∉ s.queue.late)
  | .redrive request now => !(redrive s.tables request now).2.applied
  | _ => true

/-! ### The invariant -/

/-- The invariant of the hand-off. -/
structure HandOffInv (s : Mail) : Prop where
  mail : s.Inv
  numbers : Numbering .notification s.outbox s.released
  /-- What is handed over is a claim of the family. -/
  tried : ∀ c ∈ s.tried, c ∈ s.outbox.claims ∧ ∃ e ∈ s.outbox.rows, e.id = c.id ∧ e.eventType ∈ notificationEventTypes
  reached : ∀ c ∈ s.queue.reached, c ∈ s.tried
  late : ∀ c ∈ s.queue.late, c ∈ s.tried
  given : ∀ c ∈ s.released, c ∈ s.tried ∧ c ∉ s.queue.reached ∧ c ∉ s.queue.late
  held : ∀ c ∈ s.queue.held, c ∈ s.queue.reached
  received : ∀ c ∈ s.queue.reached, c ∈ s.queue.received
  acknowledged : ∀ c ∈ s.acknowledged, c ∈ s.queue.reached

section Inv

variable {config : NotificationsConfig} {s s' : Mail} {key : ClaimKey}

/-- A claim that was not given back is the only one under its job id. -/
theorem HandOffInv.identity (hi : HandOffInv s) {c d : ClaimKey} (hc : c ∈ s.tried) (hc' : c ∉ s.released) (hd : d ∈ s.outbox.claims)
    (hd' : d ∉ s.released) (h : notificationJobId c = notificationJobId d) : c = d := by
  obtain ⟨hid, hatt⟩ := notificationJobId_inj.1 h
  obtain ⟨hclaim, e, he, hec, htype⟩ := hi.tried c hc
  exact (hi.numbers.rows e he htype).distinct c hclaim hc' d hd hd' hec.symm (hid.symm.trans hec.symm) hatt

/-- The queue takes the claim in, or took it in before. -/
theorem HandOffInv.mem_received_add (hi : HandOffInv s) (hkey : key ∈ s.outbox.claims) (hnew : key ∉ s.released) :
    key ∈ (s.queue.add key).received := by
  unfold JobQueue.add
  split
  case isTrue hheld =>
    obtain ⟨d, hd, hjob⟩ := List.any_eq_true.1 hheld
    have hreached := hi.held d hd
    obtain rfl := hi.identity (hi.reached d hreached) (fun hg => (hi.given d hg).2.1 hreached) hkey hnew (of_decide_eq_true hjob)
    exact hi.received d hreached
  case isFalse => exact List.mem_append_right _ List.mem_cons_self

theorem JobQueue.mem_reached_add {q : JobQueue} {c : ClaimKey} : c ∈ (q.add key).reached ↔ c ∈ q.reached ∨ c = key := by
  unfold JobQueue.add
  split <;> simp

theorem JobQueue.mem_received_of_add {q : JobQueue} {c : ClaimKey} (h : c ∈ q.received) : c ∈ (q.add key).received := by
  unfold JobQueue.add
  split
  · exact h
  · exact List.mem_append_left _ h

theorem JobQueue.mem_held_add {q : JobQueue} {c : ClaimKey} (h : c ∈ (q.add key).held) : c ∈ q.held ∨ c = key := by
  unfold JobQueue.add at h
  split at h
  · exact .inl h
  · exact (List.mem_append.1 h).imp_right List.mem_singleton.1

theorem JobQueue.late_add {q : JobQueue} : (q.add key).late = q.late := by
  unfold JobQueue.add
  split <;> rfl

/-- The queue, and what was handed to it, stay. -/
structure Mail.SameQueue (s s' : Mail) : Prop where
  queue : s'.queue = s.queue
  tried : s'.tried = s.tried
  acknowledged : s'.acknowledged = s.acknowledged
  released : s'.released = s.released

/-- The step is one of a dispatcher, or of the queue. -/
def MailAction.isHandOff : MailAction → Bool
  | enqueue .. | lateAdd .. | remove .. | release .. => true
  | _ => false

theorem Mail.sameQueue_of_exec {a : MailAction} (ha : a.isHandOff = false) (h : s.exec config a = some s') : s.SameQueue s' := by
  have hframe : a.isFramed = true → s.SameQueue s' := by
    intro hframed
    have hall : (s'.queue, s'.tried, s'.acknowledged, s'.released) = (s.queue, s.tried, s.acknowledged, s.released) :=
      Mail.frame_of_exec (fun s => (s.queue, s.tried, s.acknowledged, s.released)) (fun _ _ _ _ _ _ => rfl) hframed h
    simp only [Prod.mk.injEq] at hall
    exact ⟨hall.1, hall.2.1, hall.2.2.1, hall.2.2.2⟩
  cases a with
  | enqueue | lateAdd | remove | release => cases ha
  | send worker =>
    simp only [exec, Option.bind_eq_bind, Option.bind_eq_some_iff] at h
    obtain ⟨w, -, h⟩ := h
    split at h
    · exact Option.some.inj h ▸ ⟨rfl, rfl, rfl, rfl⟩
    · cases h
  | redrive request now => exact Option.some.inj h ▸ ⟨rfl, rfl, rfl, rfl⟩
  | _ => exact hframe rfl

/-- The claims handed over stay claims of the family. -/
theorem HandOffInv.tried_step (hi : HandOffInv s) {now : ℕ} {st : Statement} (h : s.outbox.exec now st = some s'.outbox) {c : ClaimKey}
    (hc : c ∈ s.outbox.claims ∧ ∃ e ∈ s.outbox.rows, e.id = c.id ∧ e.eventType ∈ notificationEventTypes) :
    c ∈ s'.outbox.claims ∧ ∃ e ∈ s'.outbox.rows, e.id = c.id ∧ e.eventType ∈ notificationEventTypes := by
  obtain ⟨hclaim, e, he, hec, htype⟩ := hc
  refine ⟨mem_claims_of_exec h hclaim, ?_⟩
  rcases permitted_of_exec hi.mail.outbox h he with hmem | ⟨e', he', hp⟩
  · exact ⟨e, hmem, hec, htype⟩
  · exact ⟨e', he', hp.id.trans hec, hp.family.1 ▸ htype⟩

/-- A step that hands nothing over and gives nothing back. -/
theorem HandOffInv.quiet (hi : HandOffInv s) (hmail : s'.Inv) (hq : s.SameQueue s')
    (hout : s'.outbox = s.outbox ∨ ∃ now st, s.outbox.exec now st = some s'.outbox ∧ st.isRedrive = false ∧
      (st.isRelease = true → st.family ≠ some .notification)) : HandOffInv s' := by
  obtain ⟨hqueue, htried, hack, hreleased⟩ := hq
  have hnumbers : Numbering .notification s'.outbox s'.released := by
    rw [hreleased]
    rcases hout with hout | ⟨now, st, hexec, hredrive, hrelease⟩
    · exact hout ▸ hi.numbers
    · exact hi.numbers.exec hi.mail.outbox hexec hredrive hrelease
  refine ⟨hmail, hnumbers, fun c hc => ?_, ?_, ?_, ?_, ?_, ?_, ?_⟩
  · rw [htried] at hc
    rcases hout with hout | ⟨now, st, hexec, -⟩
    · exact hout ▸ hi.tried c hc
    · exact hi.tried_step hexec (hi.tried c hc)
  · exact hqueue ▸ htried ▸ hi.reached
  · exact hqueue ▸ htried ▸ hi.late
  · exact hqueue ▸ htried ▸ hreleased ▸ hi.given
  · exact hqueue ▸ hi.held
  · exact hqueue ▸ hi.received
  · exact hqueue ▸ hack ▸ hi.acknowledged

/-- An add reaches the queue. -/
theorem HandOffInv.add (hi : HandOffInv s) (hmail : s'.Inv) (hout : s'.outbox = s.outbox) (htried : ∀ c, c ∈ s'.tried ↔ c ∈ s.tried ∨ c = key)
    (hreleased : s'.released = s.released) (hqueue : s'.queue.held = (s.queue.add key).held ∧
      s'.queue.reached = (s.queue.add key).reached ∧ s'.queue.received = (s.queue.add key).received)
    (hlate : ∀ c ∈ s'.queue.late, c ∈ s.queue.late) (hack : ∀ c ∈ s'.acknowledged, c ∈ s.acknowledged ∨ c = key)
    (hkey : key ∈ s.outbox.claims ∧ ∃ e ∈ s.outbox.rows, e.id = key.id ∧ e.eventType ∈ notificationEventTypes)
    (hnew : key ∉ s.released) : HandOffInv s' := by
  obtain ⟨hheld, hreached, hreceived⟩ := hqueue
  refine ⟨hmail, hout ▸ hreleased ▸ hi.numbers, fun c hc => ?_, fun c hc => ?_, fun c hc => ?_, fun c hc => ?_, fun c hc => ?_,
    fun c hc => ?_, fun c hc => ?_⟩
  · rw [hout]
    rcases (htried c).1 hc with hc | rfl
    · exact hi.tried c hc
    · exact hkey
  · rw [hreached, JobQueue.mem_reached_add] at hc
    exact (htried c).2 (hc.imp_left (hi.reached c))
  · exact (htried c).2 (.inl (hi.late c (hlate c hc)))
  · rw [hreleased] at hc
    obtain ⟨hmem, hnot, hnotLate⟩ := hi.given c hc
    refine ⟨(htried c).2 (.inl hmem), ?_, fun hl => hnotLate (hlate c hl)⟩
    rw [hreached, JobQueue.mem_reached_add, not_or]
    exact ⟨hnot, fun heq => hnew (heq ▸ hc)⟩
  · rw [hheld] at hc
    rw [hreached, JobQueue.mem_reached_add]
    exact (JobQueue.mem_held_add hc).imp_left (hi.held c)
  · rw [hreached, JobQueue.mem_reached_add] at hc
    rw [hreceived]
    rcases hc with hc | rfl
    · exact JobQueue.mem_received_of_add (hi.received c hc)
    · exact hi.mem_received_add hkey.1 hnew
  · rw [hreached, JobQueue.mem_reached_add]
    exact (hack c hc).imp_left (hi.acknowledged c)

/-- A claim is handed over. -/
theorem HandOffInv.enqueue {outcome : CallOutcome} (hi : HandOffInv s) (hmail : (s.enqueue key outcome).Inv) (hkey : s.isClaim key = true)
    (hnew : key ∉ s.tried) : HandOffInv (s.enqueue key outcome) := by
  have hclaim : key ∈ s.outbox.claims ∧ ∃ e ∈ s.outbox.rows, e.id = key.id ∧ e.eventType ∈ notificationEventTypes := by
    simpa [Mail.isClaim, List.any_eq_true] using hkey
  have hgiven : key ∉ s.released := fun hg => hnew (hi.given key hg).1
  have htried : ∀ c, c ∈ s.tried ++ [key] ↔ c ∈ s.tried ∨ c = key := fun c => by rw [List.mem_append, List.mem_singleton]
  cases outcome with
  | done =>
    exact hi.add hmail rfl htried rfl ⟨rfl, rfl, rfl⟩ (fun c hc => JobQueue.late_add ▸ hc)
      (fun c hc => (List.mem_append.1 hc).imp_right List.mem_singleton.1) hclaim hgiven
  | lostReply => exact hi.add hmail rfl htried rfl ⟨rfl, rfl, rfl⟩ (fun c hc => JobQueue.late_add ▸ hc) (fun c hc => .inl hc) hclaim hgiven
  | refused | late =>
    refine ⟨hmail, hi.numbers, List.forall_mem_append.2 ⟨hi.tried, List.forall_mem_singleton.2 hclaim⟩,
      fun c hc => List.mem_append_left _ (hi.reached c hc), ?_, fun c hc => ?_, hi.held, hi.received, hi.acknowledged⟩
    · first
      | exact fun c hc => List.mem_append_left _ (hi.late c hc)
      | exact List.forall_mem_append.2 ⟨fun c hc => List.mem_append_left _ (hi.late c hc),
          List.forall_mem_singleton.2 (List.mem_append_right _ List.mem_cons_self)⟩
    · obtain ⟨hmem, hnot, hnotLate⟩ := hi.given c hc
      refine ⟨List.mem_append_left _ hmem, hnot, ?_⟩
      first
      | exact hnotLate
      | exact fun hl => (List.mem_append.1 hl).elim hnotLate fun heq => hgiven (List.mem_singleton.1 heq ▸ hc)

/-- A claim is given back that no add of reached the queue, or will. -/
theorem HandOffInv.release {random : ℚ} {now : ℕ} {outcome : QueryOutcome} (hi : HandOffInv s)
    (hmail : (s.release config key random now outcome).Inv) (htried : key ∈ s.tried) (hgiven : key ∉ s.released)
    (hnot : takesEffect s key outcome = true → key ∉ s.queue.reached ∧ key ∉ s.queue.late) :
    HandOffInv (s.release config key random now outcome) := by
  have hexec : s.outbox.exec now (.release .notification key (notificationBackoffMs key.attempt config.backoffInitialMs
      config.backoffMaxMs random) notificationQueueUnavailableCode) = some { s.outbox with
        rows := (Outbox.release notificationEventTypes key (notificationBackoffMs key.attempt config.backoffInitialMs config.backoffMaxMs
          random) notificationQueueUnavailableCode now).run s.outbox.rows } := rfl
  by_cases houtcome : outcome = .failed
  · rw [Mail.release, if_pos houtcome]
    exact hi
  cases hhits : (Outbox.release notificationEventTypes key (notificationBackoffMs key.attempt config.backoffInitialMs
      config.backoffMaxMs random) notificationQueueUnavailableCode now).hits s.outbox.rows with
  | false =>
    rw [Mail.release, if_neg houtcome, if_neg (Bool.eq_false_iff.1 hhits)] at hmail ⊢
    have hrows : Outbox.Update.run _ s.outbox.rows = s.outbox.rows := Table.update_eq_self hhits
    rw [hrows] at hmail ⊢
    exact hi
  | true =>
    rw [Mail.release, if_neg houtcome, if_pos hhits] at hmail ⊢
    have hnot := hnot (by rw [takesEffect, decide_eq_true houtcome, Bool.true_and]; exact hhits)
    refine ⟨hmail, hi.numbers.release (hi.tried key htried).1 hgiven, fun c hc => hi.tried_step hexec (hi.tried c hc), hi.reached,
      hi.late, ?_, hi.held, hi.received, hi.acknowledged⟩
    exact List.forall_mem_append.2 ⟨hi.given, List.forall_mem_singleton.2 ⟨htried, hnot⟩⟩

theorem HandOffInv.step {a : MailAction} (hi : HandOffInv s) (hc : keepsNumbers s a = true) (h : s.exec config a = some s') :
    HandOffInv s' := by
  have hmail := hi.mail.step h
  -- what the other steps run is no release and no redrive
  have hquiet : a.isHandOff = false → (∀ st, Owns config a st → st.isRedrive = false ∧ (st.isRelease = true → st.family ≠ some .notification)) →
      HandOffInv s' := by
    intro ha howns
    refine hi.quiet hmail (Mail.sameQueue_of_exec ha h) ((Mail.outbox_of_exec hi.mail.jobs h).imp_right ?_)
    rintro ⟨now, st, hexec, hst⟩
    exact ⟨now, st, hexec, howns st hst⟩
  have hjob : ∀ {st}, JobStatement config st → st.isRedrive = false ∧ (st.isRelease = true → st.family ≠ some .notification) := by
    intro st hst
    cases hst <;> exact ⟨rfl, fun hr => by cases hr⟩
  cases a with
  | statement now st =>
    refine hquiet rfl fun st' hst => ?_
    obtain ⟨rfl, hmail⟩ := hst
    cases st' with
    | release family => exact ⟨rfl, fun _ hfam => absurd (Option.some.inj hfam) (of_decide_eq_false hmail)⟩
    | redrive => cases hmail
    | _ => exact ⟨rfl, fun hr => by cases hr⟩
  | enqueue key outcome =>
    simp only [Mail.exec] at h
    split at h
    case isTrue hkey =>
      obtain rfl := Option.some.inj h
      simp only [Bool.and_eq_true, decide_eq_true_eq] at hkey
      exact hi.enqueue hmail hkey.1 hkey.2
    case isFalse => cases h
  | lateAdd key =>
    simp only [Mail.exec] at h
    split at h
    case isTrue hkey =>
      obtain rfl := Option.some.inj h
      have htried := hi.late key hkey
      refine hi.add hmail rfl (fun c => ⟨.inl, ?_⟩) rfl ?_ ?_ (fun c hc => .inl hc) (hi.tried key htried) fun hg => (hi.given key hg).2.2 hkey
      · rintro (hc | rfl)
        · exact hc
        · exact htried
      · unfold JobQueue.add
        split <;> exact ⟨rfl, rfl, rfl⟩
      · exact fun c hc => List.mem_of_mem_erase (JobQueue.late_add ▸ hc)
    case isFalse => cases h
  | remove key =>
    obtain rfl := Option.some.inj h
    exact ⟨hmail, hi.numbers, hi.tried, hi.reached, hi.late, hi.given, fun c hc => hi.held c (List.mem_of_mem_erase hc), hi.received,
      hi.acknowledged⟩
  | release key random now outcome =>
    simp only [Mail.exec] at h
    split at h
    case isFalse => cases h
    case isTrue hkey =>
      obtain rfl := Option.some.inj h
      simp only [Bool.and_eq_true, decide_eq_true_eq] at hkey
      refine hi.release hmail hkey.1.1 hkey.2 fun heffect => ?_
      rw [keepsNumbers, heffect] at hc
      simpa using hc
  | redrive request now =>
    have hnone : (redrive s.tables request now).2.applied = false := by simpa [keepsNumbers] using hc
    have hcommit : (s.commit (redrive s.tables request now).1).outbox = s.outbox := by
      rcases redrive_cases s.tables request now with ⟨-, hdb⟩ | ⟨happlied, -⟩
      · rw [hdb]
        rfl
      · rw [hnone] at happlied
        cases happlied
    have hout : s'.outbox = s.outbox := by
      rw [← Option.some.inj h]
      exact hcommit
    exact hi.quiet hmail (Mail.sameQueue_of_exec rfl h) (.inl hout)
  | start | finishWithoutSending | send | reply | recordAcceptance | markSent | recordProviderFailure | crash =>
    exact hquiet rfl fun st hst => hjob hst

/-- **The hand-off** in every run that uses no number again. -/
theorem hand_off (config : NotificationsConfig) (s : Mail)
    (h : (mail config).Reachable (fun s a => keepsNumbers s a = true) s) : HandOff s := by
  have hi : HandOffInv s := by
    refine h.invariant ?_ fun s a s' hi hc he => hi.step hc he
    rintro s rfl
    have hnil : ∀ {α : Type} {P : α → Prop}, ∀ x ∈ ([] : List α), P x := fun _ hx => absurd hx List.not_mem_nil
    have hempty : (mail config).Reachable (fun _ _ => True) .empty := .init rfl
    exact ⟨Mail.inv_of_reachable hempty, ⟨hnil, hnil⟩, hnil, hnil, hnil, hnil, hnil, hnil, hnil⟩
  refine ⟨fun c hc hc' d hd hd' _ hjob => hi.identity hc hc' (hi.tried d hd).1 hd' hjob, fun c hc => (hi.given c hc).2,
    fun c hc => hi.received c (hi.acknowledged c hc)⟩

end Inv

def secondClaim : ClaimKey := ⟨mailId, "second", 1⟩

/-- An add of which this becomes, a release, and the next claim of the event. -/
def releasedHandOff (outcome : CallOutcome) : List MailAction :=
  [.statement 0 (.insert mailId "booking.confirmed" (confirmedPayload "VND") "booking.confirmed:1"), .statement 10 (claimMail "first"),
   .enqueue firstClaim outcome, .release firstClaim 0 20 .committed, .statement 100000000 (claimMail "second"), .enqueue secondClaim .done]

/-- The queue did not take the first claim in. -/
theorem hand_off_refused : ∃ s, (mail notificationsConfig).check (fun s a => keepsNumbers s a = true) .empty (releasedHandOff .refused) = some s ∧
    s.released = [firstClaim] ∧ s.queue.received = [secondClaim] ∧ HandOff s := by
  have hview : ((mail notificationsConfig).check (fun s a => keepsNumbers s a = true) .empty (releasedHandOff .refused)).map
      (fun s => (s.released, s.queue.received)) = some ([firstClaim], [secondClaim]) := by decide +kernel
  obtain ⟨s, hs, hview⟩ := Option.map_eq_some_iff.1 hview
  obtain ⟨hreleased, hreceived⟩ := Prod.mk.inj hview
  exact ⟨s, hs, hreleased, hreceived, hand_off notificationsConfig s (.of_check (.init rfl) hs)⟩

/-- It did, but its reply was lost: two claims under one job id, and the one it said it took is not the one it took. -/
theorem lostReply_not_handOff : ∃ s, (mail notificationsConfig).Reachable (fun _ _ => True) s ∧
    (∃ c ∈ s.queue.reached, ∃ d ∈ s.queue.reached, c ≠ d ∧ c.id = d.id ∧ notificationJobId c = notificationJobId d) ∧
    (∃ c ∈ s.acknowledged, c ∉ s.queue.received) ∧ ¬ HandOff s := by
  have hview : ((mail notificationsConfig).run .empty (releasedHandOff .lostReply)).map
      (fun s => (s.queue.reached, s.queue.received, s.acknowledged)) = some ([firstClaim, secondClaim], [firstClaim], [secondClaim]) := by
    decide +kernel
  obtain ⟨s, hs, hview⟩ := Option.map_eq_some_iff.1 hview
  simp only [Prod.mk.injEq] at hview
  obtain ⟨hreached, hreceived, hacknowledged⟩ := hview
  have hack : secondClaim ∈ s.acknowledged := hacknowledged ▸ List.mem_cons_self
  have hnot : secondClaim ∉ s.queue.received := by
    rw [hreceived]
    decide
  refine ⟨s, .of_run (.init rfl) (fun _ _ _ => trivial) hs, ?_, ⟨_, hack, hnot⟩, fun h => hnot (h.received _ hack)⟩
  rw [hreached]
  exact ⟨firstClaim, List.mem_cons_self, secondClaim, List.mem_cons_of_mem _ List.mem_cons_self, by decide, rfl, rfl⟩

end HotelBackend.Notifications
