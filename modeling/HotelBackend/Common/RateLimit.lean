import HotelBackend.Common.Json
import HotelBackend.Common.Strings
import HotelBackend.Theory.FixedWindows

/-!
# The rate limit

`RateLimitService.consume`: a counter in Redis for each scope and discriminator, incremented by a script that
gives a counter an expiry when it creates it. Of each window the first `max` calls are allowed, provided they
are answered in time (`consume_windows`): a call whose reply is lost has been counted and is refused.

## The model

A timeline is a list of calls in the order Redis runs their scripts, each with the time of Redis's clock then,
in milliseconds, and with what becomes of it: a call may fail before its script runs, or after it. When a key
with an expiry is gone is left to an `ExpiryRule`. Nothing but this service writes its keys.
-/

namespace HotelBackend.Common.RateLimit

open HotelBackend.Theory

/-! ### The store -/

structure Counter where
  value : ℕ
  /-- The time of its expiry. -/
  deadline : Option ℕ
  deriving DecidableEq, Repr

abbrev Store := String → Option Counter

/-- The largest value `INCR` produces. -/
def maxCounter : ℕ := 2 ^ 63 - 1

section Commands

variable (E : ExpiryRule) (key : String) (now : ℕ)

/-- A key whose time has come is not there. -/
def lookup (store : Store) : Option Counter :=
  (store key).filter fun counter => !counter.deadline.any fun deadline => E.gone deadline now

/-- `INCR`. No reply is the error of an overflow. -/
def incr (store : Store) : Option ℕ × Store :=
  match lookup E key now store with
  | none => (some 1, Function.update store key (some ⟨1, none⟩))
  | some counter =>
    if counter.value < maxCounter then
      (some (counter.value + 1), Function.update store key (some ⟨counter.value + 1, counter.deadline⟩))
    else (none, store)

/-- `EXPIRE`, for a positive number of seconds. -/
def expire (seconds : ℕ) (store : Store) : Store :=
  Function.update store key ((store key).map fun counter => { counter with deadline := some (now + seconds * 1000) })

def fixedWindowRateLimitScript (seconds : ℕ) (store : Store) : Option ℕ × Store :=
  match incr E key now store with
  | (some current, store) => (some current, if current = 1 then expire key now seconds store else store)
  | (none, store) => (none, store)

end Commands

/-! ### The service -/

/-- `/^[a-z0-9-]{1,64}$/` -/
def allowedScope (scope : String) : Bool :=
  1 ≤ scope.toList.length && scope.toList.length ≤ 64 &&
    scope.toList.all fun c => ('a' ≤ c && c ≤ 'z') || ('0' ≤ c && c ≤ '9') || c = '-'

/-- The policy is one the environment is validated for: a positive window, and a number that is exact. -/
structure RateLimitAttempt where
  scope : String
  discriminator : String
  max : ℕ
  windowSeconds : ℕ
  safeMax : max ≤ maxSafeInteger
  positiveWindow : 1 ≤ windowSeconds

/-- What becomes of a call. -/
inductive Fate where
  /-- No connection, or a failure before the script runs. -/
  | unsent
  | answered
  /-- The script runs, and its reply is lost or late. -/
  | unanswered
  deriving DecidableEq, Repr

structure Call extends RateLimitAttempt where
  /-- When its script runs. -/
  now : ℕ
  fate : Fate

/-- `RateLimitStoreUnavailableError` is an outcome of its own. -/
inductive Outcome where
  | allowed
  | denied
  | unavailable
  deriving DecidableEq, Repr

structure RateLimitService where
  redis : ExpiryRule
  redisKeyPrefix : String
  /-- `createHash('sha256').update(discriminator).digest('hex')` -/
  sha256Hex : String → String

section Service

variable (service : RateLimitService)

def RateLimitService.key (attempt : RateLimitAttempt) : String :=
  service.redisKeyPrefix ++ ":" ++ attempt.scope ++ ":" ++ service.sha256Hex attempt.discriminator

/-- What a reply says; a malformed one denies as well. -/
def verdict (max : ℕ) : Option ℕ → Outcome
  | none => .unavailable
  | some current => if jsNumber current ≤ max then .allowed else .denied

def consume (call : Call) (store : Store) : Outcome × Store :=
  if !allowedScope call.scope then (.unavailable, store)
  else
    let (reply, store') := fixedWindowRateLimitScript service.redis (service.key call.toRateLimitAttempt) call.now call.windowSeconds store
    match call.fate with
    | .unsent => (.unavailable, store)
    | .answered => (verdict call.max reply, store')
    | .unanswered => (.unavailable, store')

/-- The store after calls. -/
def after (store : Store) (calls : List Call) : Store := calls.foldl (fun store call => (consume service call store).2) store

/-- The calls with their outcomes. -/
def outcomes : Store → List Call → List (Call × Outcome)
  | _, [] => []
  | store, call :: calls => (call, (consume service call store).1) :: outcomes (consume service call store).2 calls

def emptyStore : Store := fun _ => none

/-- Whether the script of a call runs, on this key. -/
def countsOn (key : String) (call : Call) : Bool :=
  service.key call.toRateLimitAttempt = key && allowedScope call.scope && call.fate ≠ .unsent

/-- The calls of a key that are counted. -/
def counted (key : String) (calls : List Call) : List Call := calls.filter (countsOn service key)

/-- The calls of a key among these that are allowed. -/
def allowedOf (key : String) (entries : List (Call × Outcome)) : List Call :=
  (entries.filter fun entry => service.key entry.1.toRateLimitAttempt = key && entry.2 = .allowed).map (·.1)

/-- The calls of a key that are allowed in a timeline. -/
def allowed (key : String) (calls : List Call) : List Call := allowedOf service key (outcomes service emptyStore calls)

end Service

/-! ### One counter -/

section Cell

variable (E : ExpiryRule)

/-- A counter whose time has not come. -/
def live (now : ℕ) (cell : Option Counter) : Option Counter :=
  cell.filter fun counter => !counter.deadline.any fun deadline => E.gone deadline now

/-- What the script replies, and does to the counter of its key. -/
def count (now seconds : ℕ) (cell : Option Counter) : Option ℕ × Option Counter :=
  match live E now cell with
  | none => (some 1, some ⟨1, some (now + seconds * 1000)⟩)
  | some counter =>
    if counter.value < maxCounter then
      (some (counter.value + 1), some ⟨counter.value + 1, if counter.value = 0 then some (now + seconds * 1000) else counter.deadline⟩)
    else (none, cell)

/-- The script is about one counter. -/
theorem fixedWindowRateLimitScript_eq (key : String) (now seconds : ℕ) (store : Store) : fixedWindowRateLimitScript E key now seconds store =
    ((count E now seconds (store key)).1, Function.update store key (count E now seconds (store key)).2) := by
  have hlookup : lookup E key now store = live E now (store key) := rfl
  rw [fixedWindowRateLimitScript, incr, count, hlookup]
  cases live E now (store key) with
  | none => simp [expire]
  | some counter =>
    dsimp only
    by_cases hmax : counter.value < maxCounter
    · rw [if_pos hmax, if_pos hmax]
      by_cases hzero : counter.value = 0
      · simp [hzero, expire]
      · simp [hzero]
    · simp [hmax]

/-- The outcomes of calls that are counted, from the counter they find. -/
def cellOutcomes : Option Counter → List Call → List (Call × Outcome)
  | _, [] => []
  | cell, call :: calls =>
    (call, if call.fate = .answered then verdict call.max (count E call.now call.windowSeconds cell).1 else .unavailable) ::
      cellOutcomes (count E call.now call.windowSeconds cell).2 calls

def cellAllowed (cell : Option Counter) (calls : List Call) : List Call :=
  ((cellOutcomes E cell calls).filter fun entry => entry.2 = .allowed).map (·.1)

variable {E}

theorem verdict_allowed {max current : ℕ} (hmax : max ≤ maxSafeInteger) : verdict max (some current) = .allowed ↔ current ≤ max := by
  have hiff : jsNumber current ≤ max ↔ current ≤ max := by
    by_cases hcurrent : current ≤ maxSafeInteger
    · rw [jsNumber_of_le hcurrent]
    · have := maxSafeInteger_lt_jsNumber (not_le.1 hcurrent)
      omega
  rw [verdict, ← hiff]
  split
  · next h => exact iff_of_true rfl h
  · next h => exact iff_of_false (by simp) h

theorem cellAllowed_cons {cell : Option Counter} {call : Call} {calls : List Call} : cellAllowed E cell (call :: calls) =
    (if call.fate = .answered ∧ verdict call.max (count E call.now call.windowSeconds cell).1 = .allowed then [call] else []) ++
      cellAllowed E (count E call.now call.windowSeconds cell).2 calls := by
  rw [cellAllowed, cellOutcomes, List.filter_cons]
  by_cases hanswered : call.fate = .answered
  · by_cases hallowed : verdict call.max (count E call.now call.windowSeconds cell).1 = .allowed
    · simp [hanswered, hallowed, cellAllowed]
    · simp [hanswered, hallowed, cellAllowed]
  · simp [hanswered, cellAllowed]

/-- While the counter lives, the calls it has left are the next ones. -/
theorem cellAllowed_window {max deadline : ℕ} (hmax : max ≤ maxSafeInteger) {calls : List Call} (rest : List Call)
    (hlive : ∀ call ∈ calls, E.gone deadline call.now = false) (hpolicy : ∀ call ∈ calls, call.max = max) {value : ℕ} (hvalue : 1 ≤ value) :
    ∃ value', cellAllowed E (some ⟨value, some deadline⟩) (calls ++ rest) =
      (calls.take (max - value)).filter (·.fate = .answered) ++ cellAllowed E (some ⟨value', some deadline⟩) rest := by
  induction calls generalizing value with
  | nil => exact ⟨value, by simp⟩
  | cons call calls ih =>
    have hcell : live E call.now (some ⟨value, some deadline⟩) = some ⟨value, some deadline⟩ := by
      simp [live, hlive call List.mem_cons_self]
    have hcalls : ∀ call' ∈ calls, E.gone deadline call'.now = false := fun call' h => hlive call' (List.mem_cons_of_mem call h)
    have hpolicies : ∀ call' ∈ calls, call'.max = max := fun call' h => hpolicy call' (List.mem_cons_of_mem call h)
    rw [List.cons_append, cellAllowed_cons, count, hcell, hpolicy call List.mem_cons_self]
    by_cases hover : value < maxCounter
    · obtain ⟨value', hrest⟩ := ih hcalls hpolicies (Nat.le_add_left 1 value)
      refine ⟨value', ?_⟩
      simp only [if_pos hover, if_neg (show value ≠ 0 by omega), verdict_allowed hmax, hrest]
      by_cases hleft : value + 1 ≤ max
      · obtain ⟨left, hsucc⟩ : ∃ left, max - value = left + 1 := ⟨max - value - 1, by omega⟩
        rw [hsucc, show max - (value + 1) = left by omega, List.take_succ_cons, List.filter_cons]
        by_cases hanswered : call.fate = .answered
        · simp [hanswered, hleft]
        · simp [hanswered]
      · rw [show max - value = 0 by omega, show max - (value + 1) = 0 by omega]
        simp [hleft]
    · obtain ⟨value', hrest⟩ := ih hcalls hpolicies hvalue
      refine ⟨value', ?_⟩
      have hnone : max - value = 0 := by
        unfold maxSafeInteger at hmax
        unfold maxCounter at hover
        omega
      rw [hnone] at hrest ⊢
      simp only [if_neg hover, verdict, reduceCtorEq, and_false, if_false, List.nil_append, hrest]
      simp

/-- **Of each window the first calls are allowed**, those among them that are answered. -/
theorem cellAllowed_windows {max seconds : ℕ} (hmax : max ≤ maxSafeInteger) {calls : List Call} (hsorted : calls.Pairwise fun a b => a.now ≤ b.now)
    (hpolicy : ∀ call ∈ calls, call.max = max ∧ call.windowSeconds = seconds) {cell : Option Counter}
    (hcell : ∀ call ∈ calls, live E call.now cell = none) :
    cellAllowed E cell calls = (windows E Call.now (seconds * 1000) calls).flatMap fun window => (window.take max).filter (·.fate = .answered) := by
  induction calls using windows.induct E Call.now (seconds * 1000) generalizing cell with
  | case1 => simp [cellAllowed, cellOutcomes]
  | case2 first rest ih =>
    obtain ⟨hfirstMax, hfirstSeconds⟩ := hpolicy first List.mem_cons_self
    have hlive : ∀ call ∈ rest.takeWhile (inWindow E Call.now (seconds * 1000) first), E.gone (first.now + seconds * 1000) call.now = false := by
      intro call hcall
      have := List.mem_takeWhile_imp hcall
      simpa [inWindow] using this
    have hmem : ∀ call ∈ rest.takeWhile (inWindow E Call.now (seconds * 1000) first), call.max = max := fun call hcall =>
      (hpolicy call (List.mem_cons_of_mem _ ((List.takeWhile_sublist _).mem hcall))).1
    obtain ⟨value', hwindow⟩ := @cellAllowed_window E _ _ hmax _ (rest.dropWhile (inWindow E Call.now (seconds * 1000) first)) hlive hmem 1 le_rfl
    rw [List.takeWhile_append_dropWhile] at hwindow
    have hdead : ∀ call ∈ rest.dropWhile (inWindow E Call.now (seconds * 1000) first),
        live E call.now (some ⟨value', some (first.now + seconds * 1000)⟩) = none := by
      intro call hcall
      have := not_inWindow_of_mem hsorted hcall
      simpa [live, inWindow] using this
    have hnext := ih (pairwise_dropWhile hsorted)
      (fun call hcall => hpolicy call (List.mem_cons_of_mem _ ((List.dropWhile_sublist _).mem hcall))) hdead
    rw [windows_cons, List.flatMap_cons, ← hnext, cellAllowed_cons, count, hcell first List.mem_cons_self, hfirstMax, hfirstSeconds]
    simp only [hwindow, verdict_allowed hmax]
    cases max with
    | zero => simp
    | succ left =>
      rw [List.take_succ_cons, List.filter_cons]
      by_cases hanswered : first.fate = .answered
      · simp [hanswered]
      · simp [hanswered]

end Cell

/-! ### Keys -/

/-- A scope spends no budget but its own, and a digest neither. -/
theorem RateLimitService.key_inj {service : RateLimitService} (hdigest : ∀ discriminator, ':' ∉ (service.sha256Hex discriminator).toList)
    {a b : RateLimitAttempt} (h : service.key a = service.key b) :
    a.scope = b.scope ∧ service.sha256Hex a.discriminator = service.sha256Hex b.discriminator := by
  have hlists := congrArg String.toList h
  simp only [key, String.toList_append, List.append_assoc] at hlists
  have hmarks := List.append_cancel_left hlists
  change [':'] ++ (a.scope.toList ++ ':' :: (service.sha256Hex a.discriminator).toList) =
    [':'] ++ (b.scope.toList ++ ':' :: (service.sha256Hex b.discriminator).toList) at hmarks
  obtain ⟨hscope, hdiscriminator⟩ := append_mark_inj (hdigest _) (hdigest _) (List.append_cancel_left hmarks)
  exact ⟨String.toList_inj.1 hscope, String.toList_inj.1 hdiscriminator⟩

section Keys

variable {service : RateLimitService} {key : String} {call : Call} {calls : List Call} {store store' : Store}

/-- A call that is counted asks the counter of its key, and no other. -/
theorem consume_counted (h : countsOn service key call = true) : consume service call store =
    (if call.fate = .answered then verdict call.max (count service.redis call.now call.windowSeconds (store key)).1 else .unavailable,
      Function.update store key (count service.redis call.now call.windowSeconds (store key)).2) := by
  simp only [countsOn, Bool.and_eq_true, decide_eq_true_eq] at h
  obtain ⟨⟨rfl, hscope⟩, hsent⟩ := h
  rw [consume, hscope, fixedWindowRateLimitScript_eq]
  cases hfate : call.fate with
  | unsent => exact absurd hfate hsent
  | answered => rfl
  | unanswered => rfl

/-- One that is not counted on a key leaves its counter, and is not allowed there. -/
theorem consume_uncounted (h : countsOn service key call = false) : (consume service call store).2 key = store key ∧
    ¬ (service.key call.toRateLimitAttempt = key ∧ (consume service call store).1 = .allowed) := by
  by_cases hkey : service.key call.toRateLimitAttempt = key
  · -- the key is right, so its script does not run
    have hskip : allowedScope call.scope = false ∨ call.fate = .unsent := by
      by_contra hruns
      rw [not_or, Bool.not_eq_false] at hruns
      simp [countsOn, hkey, hruns.1, hruns.2] at h
    rcases hskip with hscope | hfate
    · simp [consume, hscope]
    · rw [consume, fixedWindowRateLimitScript_eq, hfate]
      cases allowedScope call.scope <;> simp
  · refine ⟨?_, fun hallowed => hkey hallowed.1⟩
    rw [consume, fixedWindowRateLimitScript_eq]
    cases allowedScope call.scope with
    | false => rfl
    | true => cases call.fate <;> simp [Ne.symm hkey]

/-- A call on a key answers the same wherever the counter of the key is the same. -/
theorem consume_congr (hkey : service.key call.toRateLimitAttempt = key) (h : store key = store' key) :
    (consume service call store).1 = (consume service call store').1 ∧ (consume service call store).2 key = (consume service call store').2 key := by
  subst hkey
  rw [consume, consume, fixedWindowRateLimitScript_eq, fixedWindowRateLimitScript_eq, h]
  cases allowedScope call.scope with
  | false => exact ⟨rfl, h⟩
  | true => cases call.fate <;> simp [h]

/-- **Calls on other keys have no influence.** -/
theorem outcomes_filter (h : store key = store' key) :
    (outcomes service store calls).filter (fun entry => service.key entry.1.toRateLimitAttempt = key) =
      outcomes service store' (calls.filter fun call => service.key call.toRateLimitAttempt = key) := by
  induction calls generalizing store store' with
  | nil => rfl
  | cons call calls ih =>
    rw [outcomes, List.filter_cons, List.filter_cons]
    by_cases hkey : service.key call.toRateLimitAttempt = key
    · obtain ⟨houtcome, hstore⟩ := consume_congr hkey h
      rw [if_pos (decide_eq_true hkey), if_pos (decide_eq_true hkey), outcomes, ih hstore, houtcome]
    · have hstore : (consume service call store).2 key = store' key :=
        (consume_uncounted (by simp [countsOn, hkey])).1.trans h
      rw [if_neg (by simpa using hkey), if_neg (by simpa using hkey), ih hstore]

/-- What is allowed on a key, its counter decides. -/
theorem allowedOf_outcomes : allowedOf service key (outcomes service store calls) = cellAllowed service.redis (store key) (counted service key calls) := by
  induction calls generalizing store with
  | nil => rfl
  | cons call calls ih =>
    have hcons : allowedOf service key (outcomes service store (call :: calls)) =
        (if service.key call.toRateLimitAttempt = key ∧ (consume service call store).1 = .allowed then [call] else []) ++
          allowedOf service key (outcomes service (consume service call store).2 calls) := by
      rw [outcomes, allowedOf, List.filter_cons]
      split
      · next h => simp_all [allowedOf]
      · next h => simp_all [allowedOf]
    rw [hcons, ih]
    simp only [counted, List.filter_cons]
    by_cases hcounts : countsOn service key call = true
    · have hkey : service.key call.toRateLimitAttempt = key := by
        simp only [countsOn, Bool.and_eq_true, decide_eq_true_eq] at hcounts
        exact hcounts.1.1
      rw [if_pos hcounts, cellAllowed_cons, consume_counted hcounts]
      simp only [Function.update_self]
      by_cases hanswered : call.fate = .answered
      · simp [hkey, hanswered]
      · simp [hanswered]
    · obtain ⟨hstore, hnot⟩ := @consume_uncounted service key call store (Bool.not_eq_true _ ▸ hcounts)
      rw [if_neg hcounts, if_neg hnot, hstore, List.nil_append]

/-- A counter that exists has been given an expiry, with its first increment. -/
def Counter.Expires (counter : Counter) : Prop := 1 ≤ counter.value ∧ counter.deadline.isSome = true

theorem count_expires {E : ExpiryRule} {now seconds : ℕ} {cell : Option Counter} (h : ∀ counter ∈ cell, counter.Expires) :
    ∀ counter ∈ (count E now seconds cell).2, counter.Expires := by
  intro counter hcounter
  rw [count] at hcounter
  cases hlive : live E now cell with
  | none =>
    rw [hlive] at hcounter
    obtain rfl := Option.mem_some_iff.1 hcounter
    exact ⟨le_rfl, rfl⟩
  | some old =>
    have hold : cell = some old := by
      rw [live, Option.filter_eq_some_iff] at hlive
      exact hlive.1
    obtain ⟨hpositive, hdeadline⟩ := h old hold
    rw [hlive] at hcounter
    dsimp only at hcounter
    split at hcounter
    · obtain rfl := Option.mem_some_iff.1 hcounter
      rw [if_neg (by omega)]
      exact ⟨Nat.le_add_left 1 _, hdeadline⟩
    · exact h counter hcounter

/-- **No counter is without an expiry**, at the end of any calls. -/
theorem after_expires (hstore : ∀ key, ∀ counter ∈ store key, counter.Expires) : ∀ key, ∀ counter ∈ after service store calls key, counter.Expires := by
  induction calls generalizing store with
  | nil => exact hstore
  | cons call calls ih =>
    refine ih fun key => ?_
    dsimp only
    by_cases hcounts : countsOn service key call = true
    · rw [consume_counted hcounts]
      simp only [Function.update_self]
      exact count_expires (hstore key)
    · rw [(consume_uncounted (by simpa using hcounts)).1]
      exact hstore key

end Keys

/-! ### Timelines -/

/-- **The rate limit.** Over any timeline, with one policy for the calls of a key: no counter is ever without an
expiry; of each window of the key's counted calls the first `max` are allowed, except those that are not
answered; in an interval no longer than a window at most `2 * max` are; and the calls on other keys change no
outcome. -/
theorem consume_windows (service : RateLimitService) (timeline : List Call) (hsorted : timeline.Pairwise fun a b => a.now ≤ b.now) :
    (∀ calls, calls <+: timeline → ∀ key, ∀ counter ∈ after service emptyStore calls key, counter.deadline.isSome = true) ∧
    ∀ attempt : RateLimitAttempt, (∀ call ∈ timeline, service.key call.toRateLimitAttempt = service.key attempt →
        call.max = attempt.max ∧ call.windowSeconds = attempt.windowSeconds) →
      (allowed service (service.key attempt) timeline =
        (windows service.redis Call.now (attempt.windowSeconds * 1000) (counted service (service.key attempt) timeline)).flatMap
          fun window => (window.take attempt.max).filter (·.fate = .answered)) ∧
      (∀ lo hi, hi ≤ lo + attempt.windowSeconds * 1000 →
        (allowed service (service.key attempt) timeline).countP (fun call => lo ≤ call.now ∧ call.now ≤ hi) ≤ 2 * attempt.max) ∧
      (outcomes service emptyStore timeline).filter (fun entry => service.key entry.1.toRateLimitAttempt = service.key attempt) =
        outcomes service emptyStore (timeline.filter fun call => service.key call.toRateLimitAttempt = service.key attempt) := by
  refine ⟨fun calls _ key counter hcounter => (after_expires (by simp [emptyStore]) key counter hcounter).2, fun attempt hpolicy => ?_⟩
  have hcounted : (counted service (service.key attempt) timeline).Pairwise fun a b => a.now ≤ b.now := hsorted.filter _
  have hwindows : allowed service (service.key attempt) timeline =
      (windows service.redis Call.now (attempt.windowSeconds * 1000) (counted service (service.key attempt) timeline)).flatMap
        fun window => (window.take attempt.max).filter (·.fate = .answered) := by
    rw [allowed, allowedOf_outcomes]
    refine cellAllowed_windows attempt.safeMax hcounted (fun call hcall => ?_) fun _ _ => rfl
    obtain ⟨hmem, hcounts⟩ := List.mem_filter.1 hcall
    simp only [countsOn, Bool.and_eq_true, decide_eq_true_eq] at hcounts
    exact hpolicy call hmem hcounts.1.1
  refine ⟨hwindows, fun lo hi hlength => ?_, outcomes_filter rfl⟩
  have hpositive : 0 < attempt.windowSeconds * 1000 := by
    have := attempt.positiveWindow
    omega
  rw [hwindows]
  refine countP_windows hpositive (fun window => ?_) (fun window => ?_) hcounted hlength
  · exact List.filter_sublist.trans (List.take_sublist _ _)
  · exact (List.length_filter_le _ _).trans (List.length_take_le _ _)

/-- A key is gone after the millisecond of its deadline. -/
def afterDeadline : ExpiryRule where
  gone deadline now := deadline < now
  gone_of_lt h := decide_eq_true h
  le_of_gone h := (of_decide_eq_true h).le

/-- The digests of two users. -/
def twoUsers : RateLimitService where
  redis := afterDeadline
  redisKeyPrefix := "hotel:rate"
  sha256Hex discriminator :=
    if discriminator = "7" then "7902699be42c8a8e46fbbb4501726517e86b22c56a189f7625a6da49081b2451"
    else "2c624232cdd221771294dfbb310aca000a0df6ac8b66b696d90ef06fdefb64a3"

/-- One booking a minute. -/
def onePerMinute (discriminator : String) : RateLimitAttempt := ⟨"booking-create", discriminator, 1, 60, by decide, by decide⟩

/-- The third call of the first user is one millisecond after the window of the first. -/
def twoWindows : List Call :=
  [⟨onePerMinute "7", 0, .answered⟩, ⟨onePerMinute "8", 5, .unanswered⟩, ⟨onePerMinute "7", 60000, .answered⟩, ⟨onePerMinute "7", 60001, .answered⟩]

theorem consume_windows_twoWindows :
    allowed twoUsers (twoUsers.key (onePerMinute "7")) twoWindows =
      (windows afterDeadline Call.now 60000 (counted twoUsers (twoUsers.key (onePerMinute "7")) twoWindows)).flatMap
        (fun window => (window.take 1).filter (·.fate = .answered)) ∧
    (allowed twoUsers (twoUsers.key (onePerMinute "7")) twoWindows).countP (fun call => 0 ≤ call.now ∧ call.now ≤ 60000) ≤ 2 := by
  have hpolicy : ∀ call ∈ twoWindows, twoUsers.key call.toRateLimitAttempt = twoUsers.key (onePerMinute "7") →
      call.max = 1 ∧ call.windowSeconds = 60 := by
    intro call hcall _
    simp only [twoWindows, List.mem_cons, List.not_mem_nil, or_false] at hcall
    rcases hcall with rfl | rfl | rfl | rfl <;> exact ⟨rfl, rfl⟩
  obtain ⟨-, h⟩ := consume_windows twoUsers twoWindows (by decide)
  obtain ⟨hwindows, hinterval, -⟩ := h (onePerMinute "7") hpolicy
  exact ⟨hwindows, hinterval 0 60000 le_rfl⟩

/-- A call whose reply is lost is counted, and refused: it is the first of its window, and not allowed. -/
theorem lost_reply_refused : ¬ ∀ (service : RateLimitService) (timeline : List Call) (attempt : RateLimitAttempt),
    timeline.Pairwise (fun a b => a.now ≤ b.now) →
    (∀ call ∈ timeline, service.key call.toRateLimitAttempt = service.key attempt →
      call.max = attempt.max ∧ call.windowSeconds = attempt.windowSeconds) →
    allowed service (service.key attempt) timeline =
      (windows service.redis Call.now (attempt.windowSeconds * 1000) (counted service (service.key attempt) timeline)).flatMap
        fun window => window.take attempt.max := by
  intro h
  have hlost := h twoUsers [⟨onePerMinute "7", 0, .unanswered⟩] (onePerMinute "7") (by decide) (by
    intro call hcall _
    obtain rfl := List.mem_singleton.1 hcall
    exact ⟨rfl, rfl⟩)
  have hallowed : allowed twoUsers (twoUsers.key (onePerMinute "7")) [⟨onePerMinute "7", 0, .unanswered⟩] = [] := by rfl
  have hcounted : counted twoUsers (twoUsers.key (onePerMinute "7")) [⟨onePerMinute "7", 0, .unanswered⟩] =
      [⟨onePerMinute "7", 0, .unanswered⟩] := by rfl
  rw [hallowed, hcounted, windows_cons] at hlost
  simp [onePerMinute] at hlost

end HotelBackend.Common.RateLimit
