import Mathlib.Algebra.BigOperators.Group.List.Basic
import Mathlib.Algebra.Order.BigOperators.Group.List
import HotelBackend.Bookings.Entities
import HotelBackend.Common.HotelDates
import HotelBackend.Notifications.NotificationEvent
import HotelBackend.Theory.Grouping
import HotelBackend.Theory.Results

/-!
# The statistics report

`summarizeBookingStats` folds the rows of `bookingStatsAggregateStatement` into totals and
one bucket for each period. Bookings are counted in numbers of the language, and amounts
in integers of any size that are made numbers at the end, if they fit.

Revenue is exact for any rows: it is what the confirmed and completed ones bring, for each
currency, or the report is refused (`ReportsRevenue`). Counts are exact for as long as the
bookings can be counted in numbers, which is what makes the report independent of the
order of its rows (`ReportsCounts`).
-/

namespace HotelBackend.Reports

open HotelBackend.Common
open HotelBackend.Theory
open HotelBackend.Bookings (BookingStatus)
open HotelBackend.Notifications (currencyPattern)

/-- A row of the aggregate; the count and the sum are decimal texts, and the sum of no prices is null. -/
structure BookingStatsAggregateRow where
  period : Option String
  status : BookingStatus
  currency : String
  bookings : ℕ
  amount : Option ℕ
  /-- `DATE_FORMAT` of a date. -/
  period_date : ∀ date ∈ period, (matchDate date).isSome = true
  currency_code : currencyPattern currency = true

/-- How the engine compares texts: dates by their digits, and no two currency codes alike. -/
structure Collator where
  localeCompare : String → String → ℤ
  total : ∀ a b, localeCompare a b ≤ 0 ∨ localeCompare b a ≤ 0
  trans : ∀ a b c, localeCompare a b ≤ 0 → localeCompare b c ≤ 0 → localeCompare a c ≤ 0
  dates : ∀ a b, (matchDate a).isSome = true → (matchDate b).isSome = true → (localeCompare a b ≤ 0 ↔ a ≤ b)
  codes : ∀ a b, currencyPattern a = true → currencyPattern b = true → localeCompare a b ≤ 0 → localeCompare b a ≤ 0 → a = b

/-- `(left, right) => left.localeCompare(right)`, as an order. -/
def Collator.le (collator : Collator) (left right : String) : Prop := collator.localeCompare left right ≤ 0

instance (collator : Collator) : DecidableRel collator.le := fun _ _ => inferInstanceAs (Decidable (_ ≤ _))

structure BookingStatsSummary where
  bookings : ℕ
  byStatus : BookingStatus → ℕ
  projectedRevenue : List (String × ℕ)

structure BookingStatsBucket extends BookingStatsSummary where
  period : String

structure BookingStatsTotals where
  totals : BookingStatsSummary
  buckets : List BookingStatsBucket

/-- What the report is refused with. -/
structure BookingStatsError where
  status : ℕ
  errorCode : String
  messageKey : String
  deriving DecidableEq, Repr

def amountOutOfRange : BookingStatsError := ⟨422, "BOOKING_STATS_AMOUNT_OUT_OF_RANGE", "errors.bookingStatsAmountOutOfRange"⟩

/-- `Object.values(BookingStatus)` -/
def statuses : List BookingStatus := [.pending, .confirmed, .rejected, .cancelledByUser, .cancelledByAdmin, .completed]

/-- Statuses whose price counts as projected revenue. -/
def bookingStatsRevenueStatuses : List BookingStatus := [.confirmed, .completed]

/-- Numbers of the language, added. -/
def addNumbers (a b : ℕ) : ℕ := jsNumber (a + b)

/-! ### The fold -/

structure SummaryBuilder where
  bookings : ℕ := 0
  byStatus : BookingStatus → ℕ := fun _ => 0
  revenue : InsertionMap String ℕ := .empty

namespace SummaryBuilder

def add (builder : SummaryBuilder) (row : BookingStatsAggregateRow) : SummaryBuilder :=
  let count := jsNumber row.bookings
  let counted := { builder with
    bookings := addNumbers builder.bookings count
    byStatus := Function.update builder.byStatus row.status (addNumbers (builder.byStatus row.status) count) }
  if row.status ∈ bookingStatsRevenueStatuses then
    { counted with revenue := builder.revenue.set row.currency ((builder.revenue.get? row.currency).getD 0 + row.amount.getD 0) }
  else counted

/-- An amount is made a number if it fits. -/
def narrow (entry : String × ℕ) : Except BookingStatsError (String × ℕ) :=
  if entry.2 > maxSafeInteger then .error amountOutOfRange else .ok (entry.1, jsNumber entry.2)

def build (collator : Collator) (builder : SummaryBuilder) : Except BookingStatsError BookingStatsSummary := do
  let projectedRevenue ← (builder.revenue.sortedBy collator.le).mapM narrow
  pure ⟨builder.bookings, builder.byStatus, projectedRevenue⟩

end SummaryBuilder

/-- The totals, and a builder for each period so far. -/
structure ReportBuilder where
  totals : SummaryBuilder := {}
  buckets : InsertionMap String SummaryBuilder := .empty

def ReportBuilder.addRow (report : ReportBuilder) (row : BookingStatsAggregateRow) : ReportBuilder :=
  let totals := report.totals.add row
  match row.period with
  | none => { report with totals := totals }
  | some period =>
    let bucket := (report.buckets.get? period).getD {}
    { totals := totals, buckets := report.buckets.set period (bucket.add row) }

def buildBucket (collator : Collator) (entry : String × SummaryBuilder) : Except BookingStatsError BookingStatsBucket := do
  let summary ← entry.2.build collator
  pure { summary with period := entry.1 }

def summarizeBookingStats (collator : Collator) (rows : List BookingStatsAggregateRow) : Except BookingStatsError BookingStatsTotals := do
  let report := rows.foldl ReportBuilder.addRow {}
  let totals ← report.totals.build collator
  let buckets ← (report.buckets.sortedBy collator.le).mapM (buildBucket collator)
  pure ⟨totals, buckets⟩

/-! ### What the rows say -/

abbrev Rows := List BookingStatsAggregateRow

/-- The bookings of the rows. -/
def countOf (rows : Rows) : ℕ := (rows.map (·.bookings)).sum

def withStatus (status : BookingStatus) (rows : Rows) : Rows := rows.filter (·.status = status)

def inPeriod (period : String) (rows : Rows) : Rows := rows.filter (·.period = some period)

/-- The rows of a currency that bring revenue. -/
def revenueRows (currency : String) (rows : Rows) : Rows :=
  (rows.filter (·.status ∈ bookingStatsRevenueStatuses)).filter (·.currency = currency)

/-- What they bring. -/
def revenueOf (currency : String) (rows : Rows) : ℕ := ((revenueRows currency rows).map (·.amount.getD 0)).sum

/-- The amount a summary has for a currency. -/
def BookingStatsSummary.revenueIn (summary : BookingStatsSummary) (currency : String) : ℕ :=
  ((summary.projectedRevenue.find? (·.1 = currency)).map (·.2)).getD 0

/-- Every currency's revenue fits a number. -/
def Bounded (rows : Rows) : Prop := ∀ currency, revenueOf currency rows ≤ maxSafeInteger

/-! ### A builder -/

namespace SummaryBuilder

variable (collator : Collator) (rows : Rows)

def ofRows (rows : Rows) : SummaryBuilder := rows.foldl add {}

def addCount (n : ℕ) (row : BookingStatsAggregateRow) : ℕ := addNumbers n (jsNumber row.bookings)

def addAmount (n : ℕ) (row : BookingStatsAggregateRow) : ℕ := n + row.amount.getD 0

theorem foldl_addCount {n : ℕ} (h : n + countOf rows ≤ maxSafeInteger) : rows.foldl addCount n = n + countOf rows := by
  induction rows generalizing n with
  | nil => rfl
  | cons row rows ih =>
    have hcount : countOf (row :: rows) = row.bookings + countOf rows := by simp [countOf]
    rw [hcount] at h ⊢
    have hrow : addCount n row = n + row.bookings := by
      rw [addCount, addNumbers, jsNumber_of_le (show row.bookings ≤ maxSafeInteger by omega), jsNumber_of_le (by omega)]
    rw [List.foldl_cons, hrow, ih (by omega), Nat.add_assoc]

theorem foldl_addAmount (n : ℕ) : rows.foldl addAmount n = n + (rows.map (·.amount.getD 0)).sum := by
  induction rows generalizing n with
  | nil => rfl
  | cons row rows ih =>
    rw [List.foldl_cons, ih, List.map_cons, List.sum_cons, addAmount, Nat.add_assoc]

variable (builder : SummaryBuilder) (row : BookingStatsAggregateRow)

@[simp] theorem add_bookings : (builder.add row).bookings = addCount builder.bookings row := by
  unfold add
  split <;> rfl

@[simp] theorem add_byStatus (status : BookingStatus) :
    (builder.add row).byStatus status = if row.status = status then addCount (builder.byStatus status) row else builder.byStatus status := by
  have hupdate : (builder.add row).byStatus = Function.update builder.byStatus row.status (addCount (builder.byStatus row.status) row) := by
    unfold add
    split <;> rfl
  rw [hupdate]
  by_cases h : row.status = status
  · subst h
    rw [Function.update_self, if_pos rfl]
  · rw [Function.update_of_ne (Ne.symm h), if_neg h]

@[simp] theorem add_revenue : (builder.add row).revenue =
    if row.status ∈ bookingStatsRevenueStatuses then builder.revenue.push (·.currency) 0 addAmount row else builder.revenue := by
  unfold add
  split <;> rfl

theorem bookings_foldl : (rows.foldl add builder).bookings = rows.foldl addCount builder.bookings := by
  induction rows generalizing builder with
  | nil => rfl
  | cons row rows ih => rw [List.foldl_cons, ih, add_bookings, List.foldl_cons]

theorem byStatus_foldl (status : BookingStatus) :
    (rows.foldl add builder).byStatus status = (withStatus status rows).foldl addCount (builder.byStatus status) := by
  induction rows generalizing builder with
  | nil => rfl
  | cons row rows ih =>
    rw [List.foldl_cons, ih, add_byStatus, withStatus, withStatus]
    by_cases h : row.status = status
    · simp [h]
    · simp [h]

theorem revenue_foldl : (rows.foldl add builder).revenue =
    (rows.filter (·.status ∈ bookingStatsRevenueStatuses)).foldl (InsertionMap.push (·.currency) 0 addAmount) builder.revenue := by
  induction rows generalizing builder with
  | nil => rfl
  | cons row rows ih =>
    rw [List.foldl_cons, ih, add_revenue]
    by_cases h : row.status ∈ bookingStatsRevenueStatuses
    · rw [if_pos h, List.filter_cons_of_pos (by simpa using h), List.foldl_cons]
    · rw [if_neg h, List.filter_cons_of_neg (by simpa using h)]

theorem bookings_ofRows (h : countOf rows ≤ maxSafeInteger) : (ofRows rows).bookings = countOf rows := by
  rw [ofRows, bookings_foldl, foldl_addCount rows (by simpa using h)]
  exact Nat.zero_add _

theorem countOf_withStatus_le (status : BookingStatus) : countOf (withStatus status rows) ≤ countOf rows :=
  (List.filter_sublist.map _).sum_le_sum fun _ _ => Nat.zero_le _

theorem byStatus_ofRows (h : countOf rows ≤ maxSafeInteger) (status : BookingStatus) :
    (ofRows rows).byStatus status = countOf (withStatus status rows) := by
  have hle := (countOf_withStatus_le rows status).trans h
  rw [ofRows, byStatus_foldl, foldl_addCount _ (by simpa using hle)]
  exact Nat.zero_add _

theorem get?_revenue (currency : String) :
    (ofRows rows).revenue.get? currency = if revenueRows currency rows = [] then none else some (revenueOf currency rows) := by
  have hempty : ({} : SummaryBuilder).revenue = .empty := rfl
  rw [ofRows, revenue_foldl, hempty, InsertionMap.get?_groupBy, foldl_addAmount, Nat.zero_add]
  rfl

theorem mem_keys_revenue (currency : String) : currency ∈ (ofRows rows).revenue.keys ↔ revenueRows currency rows ≠ [] := by
  rw [InsertionMap.mem_keys, get?_revenue]
  by_cases h : revenueRows currency rows = []
  · simp [h]
  · simp [h]

theorem code_of_mem_keys {currency : String} (h : currency ∈ (ofRows rows).revenue.keys) : currencyPattern currency = true := by
  obtain ⟨row, hrow⟩ := List.exists_mem_of_ne_nil _ ((mem_keys_revenue rows currency).1 h)
  obtain ⟨-, hcurrency⟩ := List.mem_filter.1 hrow
  exact of_decide_eq_true hcurrency ▸ row.currency_code

/-- What a builder is built into, if it is. -/
def summary : BookingStatsSummary := ⟨builder.bookings, builder.byStatus, builder.revenue.sortedBy collator.le⟩

theorem narrow_eq (entry : String × ℕ) :
    narrow entry = if decide (entry.2 ≤ maxSafeInteger) then .ok (entry.1, jsNumber entry.2) else .error amountOutOfRange := by
  unfold narrow
  by_cases h : entry.2 ≤ maxSafeInteger
  · rw [if_neg (by omega), if_pos (by simpa using h)]
  · rw [if_pos (by omega), if_neg (by simpa using h)]

theorem build_eq : builder.build collator =
    if (builder.revenue.sortedBy collator.le).all (·.2 ≤ maxSafeInteger) then .ok (builder.summary collator) else .error amountOutOfRange := by
  unfold build
  rw [funext narrow_eq, Result.mapM_guarded]
  by_cases h : (builder.revenue.sortedBy collator.le).all (·.2 ≤ maxSafeInteger) = true
  · have hsame : (builder.revenue.sortedBy collator.le).map (fun e => (e.1, jsNumber e.2)) = builder.revenue.sortedBy collator.le := by
      refine (List.map_congr_left fun e he => ?_).trans (List.map_id _)
      have hfits : e.2 ≤ maxSafeInteger := of_decide_eq_true (List.all_eq_true.1 h e he)
      rw [jsNumber_of_le hfits]
      rfl
    rw [if_pos h, if_pos h, hsame]
    rfl
  · rw [if_neg h, if_neg h]
    rfl

theorem all_sortedBy_iff : ((ofRows rows).revenue.sortedBy collator.le).all (·.2 ≤ maxSafeInteger) = true ↔ Bounded rows := by
  rw [List.all_eq_true]
  constructor
  · intro h currency
    by_cases hrows : revenueRows currency rows = []
    · simp [revenueOf, hrows]
    · have hget : (ofRows rows).revenue.get? currency = some (revenueOf currency rows) := by rw [get?_revenue, if_neg hrows]
      exact of_decide_eq_true (h _ (InsertionMap.mem_sortedBy.2 hget))
  · rintro h ⟨currency, amount⟩ hmem
    have hget := InsertionMap.mem_sortedBy.1 hmem
    rw [get?_revenue] at hget
    split at hget
    case isTrue => cases hget
    case isFalse =>
      obtain rfl := Option.some.inj hget
      exact decide_eq_true (h currency)

theorem build_ofRows (h : Bounded rows) : (ofRows rows).build collator = .ok ((ofRows rows).summary collator) := by
  rw [build_eq, if_pos ((all_sortedBy_iff collator rows).2 h)]

theorem build_ofRows_error (h : ¬ Bounded rows) : (ofRows rows).build collator = .error amountOutOfRange := by
  rw [build_eq, if_neg (mt (all_sortedBy_iff collator rows).1 h)]

/-- The summary depends on the rows, not on their order. -/
theorem summary_perm {rows' : Rows} (hperm : rows.Perm rows') (h : countOf rows ≤ maxSafeInteger) :
    (ofRows rows).summary collator = (ofRows rows').summary collator := by
  have hcount : countOf rows = countOf rows' := (hperm.map _).sum_eq
  have hstatus (status : BookingStatus) : countOf (withStatus status rows) = countOf (withStatus status rows') :=
    ((hperm.filter _).map _).sum_eq
  have hrevenue (currency : String) : (ofRows rows).revenue.get? currency = (ofRows rows').revenue.get? currency := by
    have hrows : (revenueRows currency rows).Perm (revenueRows currency rows') := (hperm.filter _).filter _
    have hnil : revenueRows currency rows = [] ↔ revenueRows currency rows' = [] := by
      rw [← List.length_eq_zero_iff, hrows.length_eq, List.length_eq_zero_iff]
    rw [get?_revenue, get?_revenue, revenueOf, (hrows.map _).sum_eq, ← revenueOf]
    simp only [hnil]
  have hsorted : (ofRows rows).revenue.sortedBy collator.le = (ofRows rows').revenue.sortedBy collator.le :=
    InsertionMap.sortedBy_congr collator.total collator.trans
      (fun a ha b hb => collator.codes a b (code_of_mem_keys rows ha) (code_of_mem_keys rows hb)) hrevenue
  have hbyStatus : (ofRows rows).byStatus = (ofRows rows').byStatus := by
    funext status
    rw [byStatus_ofRows rows h, byStatus_ofRows rows' (hcount ▸ h), hstatus]
  rw [summary, summary, bookings_ofRows rows h, bookings_ofRows rows' (hcount ▸ h), hcount, hbyStatus, hsorted]

end SummaryBuilder

/-! ### A summary of rows -/

/-- One amount for each currency that brings revenue, and it is all that it brings. -/
structure ListsRevenue (rows : Rows) (summary : BookingStatsSummary) : Prop where
  listed : ∀ currency, currency ∈ summary.projectedRevenue.map Prod.fst ↔ revenueRows currency rows ≠ []
  once : (summary.projectedRevenue.map Prod.fst).Nodup
  amount : ∀ currency, summary.revenueIn currency = revenueOf currency rows

/-- The bookings of the rows, of each status and in all. -/
structure ListsCounts (rows : Rows) (summary : BookingStatsSummary) : Prop where
  bookings : summary.bookings = countOf rows
  byStatus : ∀ status, summary.byStatus status = countOf (withStatus status rows)
  sum : (statuses.map summary.byStatus).sum = summary.bookings

theorem sum_statuses (rows : Rows) : (statuses.map fun status => countOf (withStatus status rows)).sum = countOf rows := by
  refine sum_groups BookingStatsAggregateRow.status BookingStatsAggregateRow.bookings (by decide) fun row _ => ?_
  cases row.status <;> decide

theorem listsCounts_summary (collator : Collator) {rows : Rows} (h : countOf rows ≤ maxSafeInteger) :
    ListsCounts rows ((SummaryBuilder.ofRows rows).summary collator) where
  bookings := SummaryBuilder.bookings_ofRows rows h
  byStatus := SummaryBuilder.byStatus_ofRows rows h
  sum := by
    have hstatus : ((SummaryBuilder.ofRows rows).summary collator).byStatus = fun status => countOf (withStatus status rows) :=
      funext (SummaryBuilder.byStatus_ofRows rows h)
    rw [hstatus, sum_statuses]
    exact (SummaryBuilder.bookings_ofRows rows h).symm

theorem listsRevenue_summary (collator : Collator) (rows : Rows) :
    ListsRevenue rows ((SummaryBuilder.ofRows rows).summary collator) where
  listed currency := InsertionMap.mem_sortedKeys.trans (SummaryBuilder.mem_keys_revenue rows currency)
  once := InsertionMap.nodup_sortedBy _
  amount currency := by
    have hread : ((SummaryBuilder.ofRows rows).summary collator).revenueIn currency =
        ((SummaryBuilder.ofRows rows).revenue.get? currency).getD 0 := congrArg (·.getD 0) (InsertionMap.find?_sortedBy _ currency)
    rw [hread, SummaryBuilder.get?_revenue]
    split
    case isTrue h => simp [revenueOf, h]
    case isFalse => rfl

/-! ### Buckets -/

def reportOf (rows : Rows) : ReportBuilder := rows.foldl ReportBuilder.addRow {}

/-- The rows that have a period, with it. -/
def dated (rows : Rows) : List (String × BookingStatsAggregateRow) := rows.filterMap fun row => row.period.map (·, row)

theorem totals_foldl (rows : Rows) (report : ReportBuilder) :
    (rows.foldl ReportBuilder.addRow report).totals = rows.foldl SummaryBuilder.add report.totals := by
  induction rows generalizing report with
  | nil => rfl
  | cons row rows ih =>
    rw [List.foldl_cons, ih, List.foldl_cons]
    congr 1
    unfold ReportBuilder.addRow
    cases row.period <;> rfl

theorem buckets_foldl (rows : Rows) (report : ReportBuilder) : (rows.foldl ReportBuilder.addRow report).buckets =
    (dated rows).foldl (InsertionMap.push Prod.fst {} fun bucket entry => bucket.add entry.2) report.buckets := by
  induction rows generalizing report with
  | nil => rfl
  | cons row rows ih =>
    rw [List.foldl_cons, ih]
    unfold dated ReportBuilder.addRow
    rw [List.filterMap_cons]
    cases row.period <;> rfl

theorem dated_inPeriod (rows : Rows) (period : String) : (dated rows).filter (·.1 = period) = (inPeriod period rows).map (period, ·) := by
  induction rows with
  | nil => rfl
  | cons row rows ih =>
    rw [dated, List.filterMap_cons, inPeriod]
    cases hp : row.period with
    | none =>
      rw [List.filter_cons_of_neg (by simp [hp])]
      exact ih
    | some date =>
      rw [Option.map_some]
      by_cases hdate : date = period
      · subst hdate
        rw [List.filter_cons_of_pos (by simp), List.filter_cons_of_pos (by simp [hp]), List.map_cons]
        exact congrArg _ ih
      · rw [List.filter_cons_of_neg (by simpa using hdate), List.filter_cons_of_neg (by simpa [hp] using hdate)]
        exact ih

/-- A bucket is the builder of the rows of its period. -/
theorem get?_buckets (rows : Rows) (period : String) : (reportOf rows).buckets.get? period =
    if inPeriod period rows = [] then none else some (SummaryBuilder.ofRows (inPeriod period rows)) := by
  have hempty : ({} : ReportBuilder).buckets = .empty := rfl
  rw [reportOf, buckets_foldl, hempty, InsertionMap.get?_groupBy, dated_inPeriod, List.foldl_map]
  simp only [List.map_eq_nil_iff]
  rfl

theorem mem_keys_buckets (rows : Rows) (period : String) :
    period ∈ (reportOf rows).buckets.keys ↔ ∃ row ∈ rows, row.period = some period := by
  rw [InsertionMap.mem_keys, get?_buckets]
  by_cases h : inPeriod period rows = []
  · have hnone : ¬ ∃ row ∈ rows, row.period = some period := by simpa [inPeriod] using h
    simp [h, hnone]
  · have hsome : ∃ row ∈ rows, row.period = some period := by simpa [inPeriod] using h
    simp [h, hsome]

theorem date_of_mem_keys {rows : Rows} {period : String} (h : period ∈ (reportOf rows).buckets.keys) : (matchDate period).isSome = true := by
  obtain ⟨row, -, hperiod⟩ := (mem_keys_buckets rows period).1 h
  exact row.period_date period hperiod

variable (collator : Collator) {rows rows' : Rows}

/-- The periods of the report. -/
def periods (rows : Rows) : List String := (reportOf rows).buckets.sortedKeys collator.le

theorem mem_periods {period : String} : period ∈ periods collator rows ↔ ∃ row ∈ rows, row.period = some period :=
  InsertionMap.mem_sortedKeys.trans (mem_keys_buckets rows period)

theorem nodup_periods : (periods collator rows).Nodup := InsertionMap.nodup_sortedBy _

/-- They ascend. -/
theorem pairwise_periods : (periods collator rows).Pairwise (· < ·) := by
  have hle : (periods collator rows).Pairwise collator.le :=
    InsertionMap.pairwise_sortedBy _ collator.total collator.trans
  refine (hle.and (nodup_periods collator)).imp_of_mem fun {a b} ha hb h => ?_
  have hdate (period : String) (hmem : period ∈ periods collator rows) : (matchDate period).isSome = true :=
    date_of_mem_keys (InsertionMap.mem_sortedKeys.1 hmem)
  exact lt_of_le_of_ne ((collator.dates a b (hdate a ha) (hdate b hb)).1 h.1) h.2

theorem periods_perm (hperm : rows.Perm rows') : periods collator rows = periods collator rows' := by
  refine InsertionMap.sortedKeys_congr collator.total collator.trans (fun a ha b hb hab hba => ?_) fun period => ?_
  · have hdates := (collator.dates a b (date_of_mem_keys ha) (date_of_mem_keys hb)).1 hab
    exact hdates.antisymm ((collator.dates b a (date_of_mem_keys hb) (date_of_mem_keys ha)).1 hba)
  · simp only [mem_keys_buckets, hperm.mem_iff]

/-- The bucket of a period. -/
def bucketOf (rows : Rows) (period : String) : BookingStatsBucket :=
  { (SummaryBuilder.ofRows (inPeriod period rows)).summary collator with period := period }

theorem Bounded.inPeriod (h : Bounded rows) (period : String) : Bounded (inPeriod period rows) := by
  intro currency
  have hsub : (revenueRows currency (Reports.inPeriod period rows)).Sublist (revenueRows currency rows) :=
    (List.filter_sublist.filter _).filter _
  exact ((hsub.map _).sum_le_sum fun _ _ => Nat.zero_le _).trans (h currency)

theorem totals_reportOf (rows : Rows) : (reportOf rows).totals = SummaryBuilder.ofRows rows := totals_foldl rows {}

theorem buildBucket_eq (h : Bounded rows) {entry : String × SummaryBuilder} (hmem : entry ∈ (reportOf rows).buckets.sortedBy collator.le) :
    buildBucket collator entry = .ok (bucketOf collator rows entry.1) := by
  have hget := InsertionMap.mem_sortedBy.1 hmem
  rw [get?_buckets] at hget
  split at hget
  case isTrue => cases hget
  case isFalse =>
    rw [buildBucket, ← Option.some.inj hget, SummaryBuilder.build_ofRows collator _ (h.inPeriod entry.1)]
    rfl

/-- If all revenue fits, the report is made of one summary for all rows and one for each period. -/
theorem summarize_eq (h : Bounded rows) : summarizeBookingStats collator rows =
    .ok ⟨(SummaryBuilder.ofRows rows).summary collator, (periods collator rows).map (bucketOf collator rows)⟩ := by
  have hbuckets := Result.mapM_ok fun entry (hmem : entry ∈ (reportOf rows).buckets.sortedBy collator.le) => buildBucket_eq collator h hmem
  have htotals : (reportOf rows).totals.build collator = _ :=
    (congrArg _ (totals_reportOf rows)).trans (SummaryBuilder.build_ofRows collator rows h)
  rw [periods, InsertionMap.sortedKeys, List.map_map]
  unfold summarizeBookingStats
  simp only [← reportOf.eq_def, htotals, hbuckets]
  rfl

theorem summarize_error (h : ¬ Bounded rows) : summarizeBookingStats collator rows = .error amountOutOfRange := by
  have htotals : (reportOf rows).totals.build collator = _ :=
    (congrArg _ (totals_reportOf rows)).trans (SummaryBuilder.build_ofRows_error collator rows h)
  unfold summarizeBookingStats
  simp only [← reportOf.eq_def, htotals]
  rfl

/-! ### The report -/

/-- Revenue: what the report says of amounts, for any rows. -/
structure ReportsRevenue (rows : Rows) : Prop where
  refused : (∃ e, summarizeBookingStats collator rows = .error e) ↔ ∃ currency, maxSafeInteger < revenueOf currency rows
  refusal : ∀ e, summarizeBookingStats collator rows = .error e → e = amountOutOfRange
  totals : ∀ report, summarizeBookingStats collator rows = .ok report → ListsRevenue rows report.totals
  buckets : ∀ report, summarizeBookingStats collator rows = .ok report →
    ∀ bucket ∈ report.buckets, ListsRevenue (inPeriod bucket.period rows) bucket.toBookingStatsSummary
  ascending : ∀ report, summarizeBookingStats collator rows = .ok report → (report.buckets.map (·.period)).Pairwise (· < ·)
  periods : ∀ report, summarizeBookingStats collator rows = .ok report →
    ∀ period, period ∈ report.buckets.map (·.period) ↔ ∃ row ∈ rows, row.period = some period
  partition : ∀ report, summarizeBookingStats collator rows = .ok report → (∀ row ∈ rows, row.period ≠ none) →
    ∀ currency, (report.buckets.map (·.revenueIn currency)).sum = report.totals.revenueIn currency

/-- Counts: what the report says of bookings, and that the order of the rows does not matter. -/
structure ReportsCounts (rows : Rows) : Prop where
  perm : ∀ rows', rows.Perm rows' → summarizeBookingStats collator rows' = summarizeBookingStats collator rows
  totals : ∀ report, summarizeBookingStats collator rows = .ok report → ListsCounts rows report.totals
  buckets : ∀ report, summarizeBookingStats collator rows = .ok report →
    ∀ bucket ∈ report.buckets, ListsCounts (inPeriod bucket.period rows) bucket.toBookingStatsSummary
  partition : ∀ report, summarizeBookingStats collator rows = .ok report → (∀ row ∈ rows, row.period ≠ none) →
    (report.buckets.map (·.bookings)).sum = report.totals.bookings ∧
      ∀ status, (report.buckets.map (·.byStatus status)).sum = report.totals.byStatus status

/-- If every row has a period, what is added up by periods is added up. -/
theorem sum_periods (hperiod : ∀ row ∈ rows, row.period ≠ none) (weight : BookingStatsAggregateRow → ℕ) {part : Rows} (hpart : part ⊆ rows) :
    ((periods collator rows).map fun period => ((inPeriod period part).map weight).sum).sum = (part.map weight).sum := by
  have hcover : ∀ row ∈ part, row.period ∈ (periods collator rows).map some := by
    intro row hrow
    obtain ⟨period, hp⟩ := Option.ne_none_iff_exists'.1 (hperiod row (hpart hrow))
    exact hp ▸ List.mem_map_of_mem ((mem_periods collator).2 ⟨row, hpart hrow, hp⟩)
  have hnodup : ((periods collator rows).map some).Nodup := (nodup_periods collator).map (Option.some_injective String)
  rw [← sum_groups BookingStatsAggregateRow.period weight hnodup hcover, List.map_map]
  rfl

/-- The rows of a period among the rows that bring revenue. -/
theorem revenueRows_inPeriod (currency period : String) (rows : Rows) :
    revenueRows currency (inPeriod period rows) = inPeriod period (revenueRows currency rows) := by
  simp only [revenueRows, inPeriod, List.filter_filter]
  exact List.filter_congr fun row _ => by ac_rfl

theorem withStatus_inPeriod (status : BookingStatus) (period : String) (rows : Rows) :
    withStatus status (inPeriod period rows) = inPeriod period (withStatus status rows) := by
  simp only [withStatus, inPeriod, List.filter_filter]
  exact List.filter_congr fun row _ => Bool.and_comm _ _

theorem summarize_ok {report : BookingStatsTotals} (h : summarizeBookingStats collator rows = .ok report) :
    report = ⟨(SummaryBuilder.ofRows rows).summary collator, (periods collator rows).map (bucketOf collator rows)⟩ := by
  by_cases hb : Bounded rows
  · exact (Except.ok.inj ((summarize_eq collator hb).symm.trans h)).symm
  · rw [summarize_error collator hb] at h
    cases h

theorem period_buckets : ((periods collator rows).map (bucketOf collator rows)).map (·.period) = periods collator rows := by
  rw [List.map_map]
  exact List.map_id _

theorem reportsRevenue (rows : Rows) : ReportsRevenue collator rows where
  refused := by
    by_cases h : Bounded rows
    · have hnone : ¬ ∃ currency, maxSafeInteger < revenueOf currency rows := fun ⟨currency, hc⟩ => absurd (h currency) (not_le.2 hc)
      simp [summarize_eq collator h, hnone]
    · have hsome : ∃ currency, maxSafeInteger < revenueOf currency rows := by simpa [Bounded] using h
      simp [summarize_error collator h, hsome]
  refusal e he := by
    by_cases h : Bounded rows
    · rw [summarize_eq collator h] at he
      cases he
    · exact (Except.error.inj ((summarize_error collator h).symm.trans he)).symm
  totals report h := by
    obtain rfl := summarize_ok collator h
    exact listsRevenue_summary collator rows
  buckets report h bucket hbucket := by
    obtain rfl := summarize_ok collator h
    obtain ⟨period, -, rfl⟩ := List.mem_map.1 hbucket
    exact listsRevenue_summary collator (inPeriod period rows)
  ascending report h := by
    obtain rfl := summarize_ok collator h
    rw [period_buckets]
    exact pairwise_periods collator
  periods report h period := by
    obtain rfl := summarize_ok collator h
    rw [period_buckets]
    exact mem_periods collator
  partition report h hperiod currency := by
    obtain rfl := summarize_ok collator h
    have hsub : revenueRows currency rows ⊆ rows := (List.filter_sublist.trans List.filter_sublist).subset
    have hbucket (period : String) : (bucketOf collator rows period).revenueIn currency =
        ((inPeriod period (revenueRows currency rows)).map (·.amount.getD 0)).sum := by
      rw [← revenueRows_inPeriod]
      exact (listsRevenue_summary collator (inPeriod period rows)).amount currency
    have htotal := (listsRevenue_summary collator rows).amount currency
    simp only [List.map_map, Function.comp_def, hbucket, htotal]
    exact sum_periods collator hperiod _ hsub

theorem bucketOf_perm (hperm : rows.Perm rows') (h : countOf rows ≤ maxSafeInteger) (period : String) :
    bucketOf collator rows period = bucketOf collator rows' period := by
  have hle : countOf (inPeriod period rows) ≤ countOf rows := (List.filter_sublist.map _).sum_le_sum fun _ _ => Nat.zero_le _
  have hrows : (inPeriod period rows).Perm (inPeriod period rows') := hperm.filter _
  rw [bucketOf, bucketOf, SummaryBuilder.summary_perm collator _ hrows (hle.trans h)]

theorem Bounded.perm (h : Bounded rows) (hperm : rows.Perm rows') : Bounded rows' := by
  intro currency
  have hsame : revenueOf currency rows = revenueOf currency rows' := (((hperm.filter _).filter _).map _).sum_eq
  exact hsame ▸ h currency

theorem summarize_perm (hperm : rows.Perm rows') (h : countOf rows ≤ maxSafeInteger) :
    summarizeBookingStats collator rows' = summarizeBookingStats collator rows := by
  by_cases hb : Bounded rows
  · have hbuckets := List.map_congr_left fun period (_ : period ∈ periods collator rows) => bucketOf_perm collator hperm h period
    rw [summarize_eq collator hb, summarize_eq collator (hb.perm hperm), SummaryBuilder.summary_perm collator rows hperm h, hbuckets,
      periods_perm collator hperm]
  · rw [summarize_error collator hb, summarize_error collator fun h' => hb (h'.perm hperm.symm)]

theorem reportsCounts (h : countOf rows ≤ maxSafeInteger) : ReportsCounts collator rows := by
  have hle (period : String) : countOf (inPeriod period rows) ≤ maxSafeInteger :=
    ((List.filter_sublist.map _).sum_le_sum fun _ _ => Nat.zero_le _).trans h
  refine ⟨fun rows' hperm => summarize_perm collator hperm h, fun report hr => ?_, fun report hr bucket hbucket => ?_,
    fun report hr hperiod => ⟨?_, fun status => ?_⟩⟩
  · obtain rfl := summarize_ok collator hr
    exact listsCounts_summary collator h
  · obtain rfl := summarize_ok collator hr
    obtain ⟨period, -, rfl⟩ := List.mem_map.1 hbucket
    exact listsCounts_summary collator (hle period)
  · obtain rfl := summarize_ok collator hr
    have hbucket (period : String) : (bucketOf collator rows period).bookings = countOf (inPeriod period rows) :=
      (listsCounts_summary collator (hle period)).bookings
    have htotal := (listsCounts_summary collator h).bookings
    simp only [List.map_map, Function.comp_def, hbucket, htotal]
    exact sum_periods collator hperiod _ (List.Subset.refl rows)
  · obtain rfl := summarize_ok collator hr
    have hbucket (period : String) : (bucketOf collator rows period).byStatus status = countOf (inPeriod period (withStatus status rows)) := by
      rw [← withStatus_inPeriod]
      exact (listsCounts_summary collator (hle period)).byStatus status
    have htotal := (listsCounts_summary collator h).byStatus status
    simp only [List.map_map, Function.comp_def, hbucket, htotal]
    exact sum_periods collator hperiod _ List.filter_sublist.subset

/-- **What the report says of its rows.** -/
theorem report_folds (collator : Collator) (rows : Rows) :
    ReportsRevenue collator rows ∧ (countOf rows ≤ maxSafeInteger → ReportsCounts collator rows) :=
  ⟨reportsRevenue collator rows, reportsCounts collator⟩

/-! ### Runs -/

/-- Texts compared by code points. -/
def compareCodePoints (a b : String) : ℤ := if a ≤ b then 0 else 1

theorem compareCodePoints_le_iff {a b : String} : compareCodePoints a b ≤ 0 ↔ a ≤ b := by
  by_cases h : a ≤ b <;> simp [compareCodePoints, h]

def codePoints : Collator where
  localeCompare := compareCodePoints
  total a b := (le_total a b).imp compareCodePoints_le_iff.2 compareCodePoints_le_iff.2
  trans _ _ _ hab hbc := compareCodePoints_le_iff.2 ((compareCodePoints_le_iff.1 hab).trans (compareCodePoints_le_iff.1 hbc))
  dates _ _ _ _ := compareCodePoints_le_iff
  codes _ _ _ _ hab hba := (compareCodePoints_le_iff.1 hab).antisymm (compareCodePoints_le_iff.1 hba)

/-- A row in the currency of the hotel. -/
def dongRow (period : Option String) (status : BookingStatus) (bookings : ℕ) (amount : Option ℕ)
    (hperiod : ∀ date ∈ period, (matchDate date).isSome = true) : BookingStatsAggregateRow :=
  ⟨period, status, "VND", bookings, amount, hperiod, by decide⟩

/-- A stay that is confirmed, one that is over, and one that was refused, in two months. -/
def twoMonths : Rows :=
  [dongRow (some "2026-11-01") .confirmed 2 (some 3000) (by decide), dongRow (some "2026-10-01") .completed 1 (some 500) (by decide),
    dongRow (some "2026-10-01") .rejected 4 (some 9999) (by decide)]

theorem report_folds_twoMonths : countOf twoMonths = 7 ∧ revenueOf "VND" twoMonths = 3500 ∧
    ReportsRevenue codePoints twoMonths ∧ ReportsCounts codePoints twoMonths :=
  ⟨by decide, by decide, (report_folds codePoints twoMonths).1, (report_folds codePoints twoMonths).2 (by decide)⟩

/-- More pending bookings than numbers count one by one, and two that are cancelled. -/
def uncountable : Rows :=
  [dongRow none .pending 9007199254740992 none (by simp), dongRow none .cancelledByUser 1 none (by simp),
    dongRow none .cancelledByAdmin 1 none (by simp)]

theorem bounded_uncountable : Bounded uncountable := by
  intro currency
  have hrows : revenueRows currency uncountable = [] := by rw [revenueRows, show uncountable.filter _ = [] by decide, List.filter_nil]
  simp [revenueOf, hrows]

/-- Past the numbers that count one by one, the order of the rows shows, and the statuses do not add up. -/
theorem report_uncountable : ∃ report report', summarizeBookingStats codePoints uncountable = .ok report ∧
    summarizeBookingStats codePoints uncountable.reverse = .ok report' ∧ report.totals.bookings ≠ report'.totals.bookings ∧
    (statuses.map report.totals.byStatus).sum ≠ report.totals.bookings :=
  ⟨_, _, summarize_eq codePoints bounded_uncountable,
    summarize_eq codePoints (bounded_uncountable.perm (List.reverse_perm uncountable).symm), by decide +kernel, by decide +kernel⟩

end HotelBackend.Reports
