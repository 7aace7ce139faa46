import HotelBackend.Outbox.Budget
import HotelBackend.Notifications.HandOff

/-!
# The budget of a mail

A send costs an attempt of its event. The claim counts attempts and does not look at the
count, a duplicate of a job sends again, and a job whose claim is gone may be about to
send: `sparesSends` is what the steps would have to make sure of.
-/

namespace HotelBackend.Notifications

open HotelBackend.Common
open HotelBackend.Theory
open HotelBackend.Outbox
open HotelBackend.Files (CallOutcome QueryOutcome)

/-- A claim that has sent is not given back, no claim recovers an event whose sends are spent, and a claim sends while it
holds its event, once. -/
def sparesSends (config : NotificationsConfig) (s : Mail) : MailAction → Bool
  | .statement now st => sparesRecovered .notification config.maxAttempts s.sends s.outbox.rows now st
  | .release key _ _ outcome => !takesEffect s key outcome || key ∉ s.sends
  | .send worker => (s.worker worker).all fun w => w.data ∉ s.sends && s.outbox.rows.any w.data.holds
  | _ => true

section Steps

variable {config : NotificationsConfig} {s s' : Mail}

/-- The sends of the events, in their budget. -/
structure Mail.Sparing (config : NotificationsConfig) (s : Mail) : Prop where
  mail : s.Inv
  budget : Budgeted .notification config.maxAttempts s.outbox s.sends

/-- A statement of a step. -/
theorem Mail.Sparing.statement {now : ℕ} {st : Statement} (hi : s.Sparing config) (hmax : 0 < config.maxAttempts)
    (h : s.outbox.exec now st = some s'.outbox) (hmail : s'.Inv) (hsends : s'.sends = s.sends)
    (hf : Frugal .notification config.maxAttempts s.sends s.outbox now st) : s'.Sparing config :=
  ⟨hmail, hsends ▸ hi.budget.exec hi.mail.outbox hmax hf h⟩

theorem Mail.Sparing.step {a : MailAction} (hi : s.Sparing config) (hmax : 0 < config.maxAttempts) (hc : sparesSends config s a = true)
    (h : s.exec config a = some s') : s'.Sparing config := by
  have hmail := hi.mail.step h
  -- a step that sends nothing runs a statement of its own, if any
  have hquiet : s'.sends = s.sends → (∀ now st, Owns config a st → s.outbox.exec now st = some s'.outbox →
      Frugal .notification config.maxAttempts s.sends s.outbox now st) → s'.Sparing config := by
    intro hsends hf
    rcases Mail.outbox_of_exec hi.mail.jobs h with hout | ⟨now, st, hexec, hst⟩
    · exact ⟨hmail, hout ▸ hsends ▸ hi.budget⟩
    · exact hi.statement hmax hexec hmail hsends (hf now st hst hexec)
  have hjob : ∀ now st, JobStatement config st → Frugal .notification config.maxAttempts s.sends s.outbox now st := by
    intro now st hst
    cases hst with
    | retry _ _ hattempt => exact fun _ => hattempt
    | _ => trivial
  have hframe : a.isFramed = true → s'.sends = s.sends := fun ha => Mail.frame_of_exec (·.sends) (fun _ _ _ _ _ _ => rfl) ha h
  cases a with
  | statement now st =>
    simp only [Mail.exec] at h
    split at h
    · cases h
    case isFalse hst =>
      obtain ⟨outbox, hexec, rfl⟩ := Option.map_eq_some_iff.1 h
      refine hi.statement hmax hexec hmail rfl (frugal_of_sparesRecovered hc (fun key hr hfam _ _ => ?_) fun hfam => ?_)
      · cases st with
        | release => exact absurd (decide_eq_true (Option.some.inj hfam)) hst
        | _ => cases hr
      · cases st with
        | deliverySent | deliveryRetry | deliveryFailed | deliveryRenew | redrive => exact absurd rfl hst
        | exportRenew | exportComplete | exportRetry | exportFail | lifecyclePublished | lifecycleRetry | lifecycleFailed | insert =>
          cases hfam
        | claim | release => exact ⟨rfl, fun hr => absurd hr Bool.false_ne_true⟩
  | enqueue key outcome =>
    simp only [Mail.exec] at h
    split at h
    case isTrue =>
      obtain rfl := Option.some.inj h
      refine hquiet ?_ fun now st hst _ => hjob now st hst
      cases outcome <;> rfl
    case isFalse => cases h
  | lateAdd key =>
    simp only [Mail.exec] at h
    split at h
    case isTrue => exact hquiet (Option.some.inj h ▸ rfl) fun now st hst _ => hjob now st hst
    case isFalse => cases h
  | release key random now outcome =>
    have hsends : s'.sends = s.sends := by
      simp only [Mail.exec] at h
      split at h
      case isFalse => cases h
      case isTrue =>
        rw [← Option.some.inj h, Mail.release]
        dsimp only
        split <;> rfl
    refine hquiet hsends fun now st hst _ => ?_
    obtain ⟨houtcome, retryInMs, errorCode, rfl⟩ := hst
    rintro - ⟨e, he, htype, hholds⟩
    have htype : e.eventType ∈ notificationEventTypes := htype
    have heffect : takesEffect s key outcome = true := by
      rw [takesEffect, decide_eq_true houtcome, Bool.true_and]
      exact List.any_eq_true.2 ⟨e, he, by rw [decide_eq_true htype, hholds, Bool.and_self]⟩
    rw [sparesSends, heffect] at hc
    simpa using hc
  | send worker =>
    simp only [Mail.exec, Option.bind_eq_bind, Option.bind_eq_some_iff] at h
    obtain ⟨w, hw, h⟩ := h
    split at h
    case h_2 => cases h
    case h_1 =>
      obtain rfl := Option.some.inj h
      simp only [sparesSends, hw, Option.all_some, Bool.and_eq_true, decide_eq_true_eq, List.any_eq_true] at hc
      obtain ⟨hnew, e, he, hholds⟩ := hc
      exact ⟨hmail, hi.budget.start hi.mail.outbox hnew he hholds⟩
  | redrive request now =>
    have hdone : ∀ db, (Mail.exec config s (.redrive request now)) = some s' → (redrive s.tables request now).1 = db →
        s'.outbox = { s.outbox with rows := db.events } ∧
        s'.sends = if (redrive s.tables request now).2.applied then s.sends.filter (·.id ≠ request.outboxEventId) else s.sends := by
      rintro db h rfl
      exact Option.some.inj h ▸ ⟨rfl, rfl⟩
    rcases redrive_cases s.tables request now with ⟨happlied, hdb⟩ | ⟨happlied, -, -, hdb⟩
    · obtain ⟨hout, hsends⟩ := hdone _ h hdb
      rw [happlied] at hsends
      exact ⟨hmail, by rw [hout, hsends]; exact hi.budget⟩
    · obtain ⟨hout, hsends⟩ := hdone _ h hdb
      rw [happlied] at hsends
      have hexec : s.outbox.exec now (.redrive request.outboxEventId) = some s'.outbox := by
        rw [hout]
        rfl
      exact ⟨hmail, hsends ▸ hi.budget.redrive hi.mail.outbox hmax hexec⟩
  | remove key => exact hquiet (Option.some.inj h ▸ rfl) fun now st hst _ => hjob now st hst
  | start | finishWithoutSending | reply | recordAcceptance | markSent | recordProviderFailure | crash =>
    exact hquiet (hframe rfl) fun now st hst _ => hjob now st hst

theorem Mail.sparing_of_reachable (hmax : 0 < config.maxAttempts)
    (h : (mail config).Reachable (fun s a => sparesSends config s a = true) s) : s.Sparing config := by
  refine h.invariant ?_ fun s a s' hi hc he => hi.step hmax hc he
  rintro s rfl
  have hempty : (mail config).Reachable (fun _ _ => True) .empty := .init rfl
  have hnil : ∀ {α : Type} {P : α → Prop}, ∀ x ∈ ([] : List α), P x := fun _ hx => absurd hx List.not_mem_nil
  exact ⟨Mail.inv_of_reachable hempty, hnil, hnil⟩

end Steps

end HotelBackend.Notifications
