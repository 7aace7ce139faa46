import Mathlib.Algebra.Order.Ring.Rat
import Mathlib.Tactic.Positivity
import Mathlib.Tactic.Ring
import HotelBackend.Notifications.DeliveryWorker
import HotelBackend.Outbox.Protocol
import HotelBackend.Reports.ExportJobs

/-!
# The three backoffs

Each family delays a retry by an initial delay that doubles with the attempts, with jitter above it, under a
ceiling. Two compute it in the program: the ceiling, then the jitter, then the ceiling again. The relay computes
it in the statement: the jitter, then the ceiling, once. They come to the same (`backoffMs_eq`), since jitter
only adds: where the ceiling cuts the base, it cuts what is above it as well.
-/

namespace HotelBackend.Outbox

open HotelBackend.Notifications (notificationBackoffMs)
open HotelBackend.Reports (roomExportBackoffMs)

section Backoff

variable {attempt later initialMs maxMs : ℕ} {random : ℚ}

/-- The base delay without a ceiling. -/
def doubled (initialMs attempt : ℕ) : ℕ := initialMs * 2 ^ min (attempt - 1) 30

theorem le_doubled : initialMs ≤ doubled initialMs attempt := Nat.le_mul_of_pos_right _ (Nat.two_pow_pos _)

theorem doubled_mono (h : attempt ≤ later) : doubled initialMs attempt ≤ doubled initialMs later := by
  apply Nat.mul_le_mul_left
  apply Nat.pow_le_pow_right (by decide)
  omega

theorem roomExportBackoffMs_eq : roomExportBackoffMs attempt initialMs maxMs random =
    min (min (doubled initialMs attempt) maxMs + (random * (min (doubled initialMs attempt) maxMs : ℕ) * (1 / 5)).floor.toNat) maxMs := rfl

theorem floor_nonneg {q : ℚ} (h : 0 ≤ q) : 0 ≤ q.floor := Rat.le_floor_iff.2 (by simpa using h)

theorem floor_mono {q q' : ℚ} (h : q ≤ q') : q.floor.toNat ≤ q'.floor.toNat := Int.toNat_le_toNat (Rat.floor_monotone h)

/-- Jitter is added to a delay before its fraction is dropped, or after. -/
theorem floor_jitter (h : 0 ≤ random) (delay : ℕ) :
    ((delay : ℚ) * (1 + random * (1 / 5))).floor.toNat = delay + (random * delay * (1 / 5)).floor.toNat := by
  have hsplit : (delay : ℚ) * (1 + random * (1 / 5)) = random * delay * (1 / 5) + ((delay : ℤ) : ℚ) := by
    push_cast
    ring
  have hfloor : 0 ≤ (random * delay * (1 / 5)).floor := floor_nonneg (by positivity)
  rw [hsplit, Rat.floor_add_intCast]
  omega

/-- The delay of the statement is that of the program. -/
theorem backoffMs_eq (h : 0 ≤ random) :
    BookingLifecycleRelay.backoffMs initialMs maxMs attempt random = roomExportBackoffMs attempt initialMs maxMs random := by
  have hcast : (initialMs * 2 ^ min (attempt - 1) BookingLifecycleRelay.maximumBackoffExponent * (1 + random * (1 / 5)) : ℚ) =
      (doubled initialMs attempt : ℕ) * (1 + random * (1 / 5)) := by
    rw [doubled]
    push_cast
    rfl
  rw [BookingLifecycleRelay.backoffMs, hcast, floor_jitter h, roomExportBackoffMs_eq]
  by_cases hcut : doubled initialMs attempt ≤ maxMs
  · rw [min_eq_left hcut]
  · -- the ceiling cuts the base, and all that is above it
    rw [min_eq_right (not_le.1 hcut).le]
    omega

theorem le_backoff (h : initialMs ≤ maxMs) : initialMs ≤ roomExportBackoffMs attempt initialMs maxMs random := by
  have hbase : initialMs ≤ min (doubled initialMs attempt) maxMs := le_min le_doubled h
  rw [roomExportBackoffMs_eq]
  exact le_min (hbase.trans (Nat.le_add_right _ _)) h

theorem backoff_le : roomExportBackoffMs attempt initialMs maxMs random ≤ maxMs := min_le_right _ _

/-- A later attempt does not wait less. -/
theorem backoff_mono (hrandom : 0 ≤ random) (h : attempt ≤ later) :
    roomExportBackoffMs attempt initialMs maxMs random ≤ roomExportBackoffMs later initialMs maxMs random := by
  have hbase : min (doubled initialMs attempt) maxMs ≤ min (doubled initialMs later) maxMs := min_le_min_right _ (doubled_mono h)
  have hjitter : random * (min (doubled initialMs attempt) maxMs : ℕ) * (1 / 5) ≤ random * (min (doubled initialMs later) maxMs : ℕ) * (1 / 5) := by
    apply mul_le_mul_of_nonneg_right _ (by positivity)
    apply mul_le_mul_of_nonneg_left _ hrandom
    exact_mod_cast hbase
  rw [roomExportBackoffMs_eq, roomExportBackoffMs_eq]
  exact min_le_min_right _ (add_le_add hbase (floor_mono hjitter))

end Backoff

/-- A row that a relay hands back has been claimed: of `attempts`, which is unsigned, one can be taken. -/
theorem attempts_of_markRetry {s : State} (h : outbox.Reachable (fun _ _ => True) s) {ids : List String} {claimToken errorCode : String}
    {backoffInitialMs backoffMaxMs now : ℕ} {rand : String → ℚ} {e : OutboxEvent} (he : e ∈ s.rows)
    (hpred : (BookingLifecycleRelay.markRetry ids claimToken backoffInitialMs backoffMaxMs rand errorCode now).pred e = true) : 1 ≤ e.attempts := by
  simp only [BookingLifecycleRelay.markRetry, BookingLifecycleRelay.finish, Bool.and_eq_true, decide_eq_true_eq] at hpred
  obtain ⟨c, hc, hholds⟩ := (inv_of_reachable h).held e he hpred.1.2
  exact (ClaimKey.holds_iff.1 hholds).2.2.2 ▸ (inv_of_reachable h).positive c hc

/-- **The three backoffs agree**, also in the row that `markRetry` writes; they keep to their bounds, and do not
fall from one attempt to a later one. -/
theorem backoffs_agree (attempt initialMs maxMs : ℕ) (random : ℚ) (hmax : initialMs ≤ maxMs) (hrandom : 0 ≤ random) :
    notificationBackoffMs attempt initialMs maxMs random = roomExportBackoffMs attempt initialMs maxMs random ∧
    BookingLifecycleRelay.backoffMs initialMs maxMs attempt random = roomExportBackoffMs attempt initialMs maxMs random ∧
    (∀ (ids : List String) (claimToken errorCode : String) (rand : String → ℚ) (now : ℕ) (e : OutboxEvent), e.attempts = attempt → rand e.id = random →
      ((BookingLifecycleRelay.markRetry ids claimToken initialMs maxMs rand errorCode now).set e).availableAt =
        now + roomExportBackoffMs attempt initialMs maxMs random * 1000) ∧
    (initialMs ≤ roomExportBackoffMs attempt initialMs maxMs random ∧ roomExportBackoffMs attempt initialMs maxMs random ≤ maxMs) ∧
    ∀ later, attempt ≤ later → roomExportBackoffMs attempt initialMs maxMs random ≤ roomExportBackoffMs later initialMs maxMs random := by
  refine ⟨rfl, backoffMs_eq hrandom, ?_, ⟨le_backoff hmax, backoff_le⟩, fun later h => backoff_mono hrandom h⟩
  rintro ids claimToken errorCode rand now e rfl rfl
  rw [← backoffMs_eq hrandom]
  rfl

/-- The fourth attempt of a delay that is cut by its ceiling. -/
theorem backoffs_agree_fourth : BookingLifecycleRelay.backoffMs 30000 200000 4 (1 / 2) = roomExportBackoffMs 4 30000 200000 (1 / 2) ∧
    30000 ≤ roomExportBackoffMs 4 30000 200000 (1 / 2) := by
  obtain ⟨-, hrelay, -, hbounds, -⟩ := backoffs_agree 4 30000 200000 (1 / 2) (by decide) (by decide +kernel)
  exact ⟨hrelay, hbounds.1⟩

example : roomExportBackoffMs 2 30000 200000 (1 / 2) = 66000 := by decide +kernel

end HotelBackend.Outbox
