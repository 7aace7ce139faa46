import HotelBackend.Bookings.StayDates
import HotelBackend.Reports.BookingStatsReport
import HotelBackend.Reports.ReadModel

/-!
# The statistics report over the read model

`BookingStatsReportService.report` from the request to the answer: the range is checked, the facts are aggregated by
`bookingStatsAggregateStatement` and the rows are summarized. Grouping in the database and folding in the service are
two stages of one sum, so a report says of the facts what they say themselves (`report_ok`), and with the read model
it says it of the bookings (`report_agrees`).
-/

namespace HotelBackend.Reports

open HotelBackend.Common
open HotelBackend.Theory
open HotelBackend.Bookings
open HotelBackend.Notifications (currencyPattern hotelDatePattern)

/-! ### The query -/

inductive BookingStatsGrouping where
  | day | month
  deriving DecidableEq, Repr

/-- `BookingStatsQueryDto`, validated. -/
structure BookingStatsQuery where
  fromDate : String
  toDate : String
  roomTypeId : Option String
  groupBy : Option BookingStatsGrouping
  from_date : isLifecycleDate fromDate = true
  to_date : isLifecycleDate toDate = true

/-- A row of `booking_stats_facts` read back: its dates are dates, and its currency is a code. -/
structure StoredFact where
  row : BookingStatsFactRow
  date : (matchDate row.checkIn).isSome = true
  code : currencyPattern row.currency = true

/-- `DATE_FORMAT(check_in, '%Y-%m-01')` -/
def firstOfMonth (checkIn : String) : String := String.ofList (checkIn.toList.take 8 ++ ['0', '1'])

def periodExpressions : Option BookingStatsGrouping → String → Option String
  | none, _ => none
  | some .day, checkIn => some checkIn
  | some .month, checkIn => some (firstOfMonth checkIn)

theorem matchDate_firstOfMonth {checkIn : String} (h : (matchDate checkIn).isSome = true) : (matchDate (firstOfMonth checkIn)).isSome = true := by
  unfold matchDate at h
  split at h
  case h_1 a b c d e f g k heq =>
    split at h
    case isTrue hdigits =>
      have htext : (firstOfMonth checkIn).toList = [a, b, c, d, '-', e, f, '-', '0', '1'] := by
        rw [firstOfMonth, heq, String.toList_ofList]
        rfl
      simp only [List.all_cons, List.all_nil, Bool.and_true, Bool.and_eq_true] at hdigits
      have hzero : isDigit '0' = true := by decide
      have hone : isDigit '1' = true := by decide
      simp only [matchDate, htext]
      simp [hdigits, hzero, hone]
    case isFalse => cases h
  case h_2 => cases h

theorem matchDate_period {groupBy : Option BookingStatsGrouping} {checkIn : String} (h : (matchDate checkIn).isSome = true) :
    ∀ date ∈ periodExpressions groupBy checkIn, (matchDate date).isSome = true := by
  rintro date hdate
  match groupBy with
  | none => cases hdate
  | some .day =>
    obtain rfl := Option.some.inj hdate
    exact h
  | some .month =>
    obtain rfl := Option.some.inj hdate
    exact matchDate_firstOfMonth h

/-! ### The aggregate -/

/-- `GROUP BY period, status, currency` -/
structure StatsGroup where
  period : Option String
  status : BookingStatus
  currency : String
  period_date : ∀ date ∈ period, (matchDate date).isSome = true
  currency_code : currencyPattern currency = true
  deriving DecidableEq

def StoredFact.group (groupBy : Option BookingStatsGrouping) (fact : StoredFact) : StatsGroup where
  period := periodExpressions groupBy fact.row.checkIn
  status := fact.row.status
  currency := fact.row.currency
  period_date := matchDate_period fact.date
  currency_code := fact.code

/-- `COUNT(*)` and `SUM(price_amount)` of a group. -/
def aggregateRow (g : StatsGroup × List StoredFact) : BookingStatsAggregateRow where
  period := g.1.period
  status := g.1.status
  currency := g.1.currency
  bookings := g.2.length
  amount := some (g.2.map (·.row.priceAmount)).sum
  period_date := g.1.period_date
  currency_code := g.1.currency_code

/-- `ORDER BY period ASC, status ASC, currency ASC`: no period is first, and a status is where its column lists it. -/
def AggregateOrder (left right : BookingStatsAggregateRow) : Prop :=
  let period (row : BookingStatsAggregateRow) := row.period.getD ""
  period left < period right ∨ period left = period right ∧ (statuses.idxOf left.status < statuses.idxOf right.status ∨
    left.status = right.status ∧ left.currency ≤ right.currency)

instance : DecidableRel AggregateOrder := fun _ _ => inferInstanceAs (Decidable (_ ∨ _))

/-- `WHERE check_in >= ? AND check_in < ?`, of a type if one is asked for. -/
def BookingStatsQuery.Selects (query : BookingStatsQuery) (checkIn roomTypeId : String) : Prop :=
  query.fromDate ≤ checkIn ∧ checkIn < query.toDate ∧ ∀ id ∈ query.roomTypeId, roomTypeId = id

instance (query : BookingStatsQuery) (checkIn roomTypeId : String) : Decidable (query.Selects checkIn roomTypeId) :=
  inferInstanceAs (Decidable (_ ∧ _ ∧ _))

def aggregate (query : BookingStatsQuery) (facts : List StoredFact) : List BookingStatsAggregateRow :=
  ((groupsOf (·.group query.groupBy) (facts.filter fun f => query.Selects f.row.checkIn f.row.roomTypeId)).map aggregateRow).insertionSort
    AggregateOrder

/-- `SELECT MAX(last_occurred_at)` -/
def asOf (facts : List StoredFact) : Option ℤ := (facts.map (·.row.lastOccurredAt)).max?

/-! ### The service -/

def rangeInvalid : BookingStatsError := ⟨400, "BOOKING_STATS_RANGE_INVALID", "errors.bookingStatsRangeInvalid"⟩

def disabled : BookingStatsError := ⟨503, "BOOKING_STATS_DISABLED", "errors.bookingStatsDisabled"⟩

def bookingStatsMaxRangeDays : ℤ := 366

structure BookingStatsReport extends BookingStatsTotals where
  fromDate : String
  toDate : String
  roomTypeId : Option String
  groupBy : Option BookingStatsGrouping
  asOf : Option String

/-- The two reads are of two connections, so the table may have changed between them. -/
def report (engine : String → Option ℤ) (collator : Collator) (enabled : Bool) (query : BookingStatsQuery) (facts newest : List StoredFact) :
    Except BookingStatsError BookingStatsReport := do
  if !enabled then throw disabled
  if !(hotelDateSpanDays engine query.fromDate query.toDate).any fun days => 1 ≤ days ∧ days ≤ bookingStatsMaxRangeDays then throw rangeInvalid
  let totals ← summarizeBookingStats collator (aggregate query facts)
  return { totals with
    fromDate := query.fromDate, toDate := query.toDate, roomTypeId := query.roomTypeId, groupBy := query.groupBy
    asOf := (asOf newest).map fun ms => String.ofList (isoInstant ms) }

/-! ### What a report is about -/

/-- What there is to know of a booking. -/
structure Figures where
  status : BookingStatus
  checkIn : String
  priceAmount : ℕ
  currency : String
  deriving DecidableEq

def StoredFact.figures (fact : StoredFact) : Figures := ⟨fact.row.status, fact.row.checkIn, fact.row.priceAmount, fact.row.currency⟩

/-- It is projected revenue of the currency. -/
def Figures.Brings (currency : String) (f : Figures) : Prop := f.status ∈ bookingStatsRevenueStatuses ∧ f.currency = currency

instance (currency : String) (f : Figures) : Decidable (f.Brings currency) := inferInstanceAs (Decidable (_ ∧ _))

/-- What these bring. -/
def figuresRevenue (currency : String) (figures : List Figures) : ℕ := ((figures.filter (·.Brings currency)).map (·.priceAmount)).sum

/-- The summary is of these. -/
structure Summarizes (figures : List Figures) (summary : BookingStatsSummary) : Prop where
  bookings : summary.bookings = figures.length
  byStatus : ∀ status, summary.byStatus status = figures.countP (·.status = status)
  listed : ∀ currency, currency ∈ summary.projectedRevenue.map Prod.fst ↔ ∃ f ∈ figures, f.Brings currency
  once : (summary.projectedRevenue.map Prod.fst).Nodup
  amount : ∀ currency, summary.revenueIn currency = figuresRevenue currency figures

/-- The report is of these: one bucket for each period in which one checks in. -/
structure ReportsOn (groupBy : Option BookingStatsGrouping) (figures : List Figures) (report : BookingStatsTotals) : Prop where
  totals : Summarizes figures report.totals
  buckets : ∀ bucket ∈ report.buckets,
    Summarizes (figures.filter fun f => periodExpressions groupBy f.checkIn = some bucket.period) bucket.toBookingStatsSummary
  periods : ∀ period, period ∈ report.buckets.map (·.period) ↔ ∃ f ∈ figures, periodExpressions groupBy f.checkIn = some period
  ascending : (report.buckets.map (·.period)).Pairwise (· < ·)

section Figures

variable {figures figures' : List Figures}

theorem figuresRevenue_perm (h : figures.Perm figures') (currency : String) : figuresRevenue currency figures = figuresRevenue currency figures' :=
  ((h.filter _).map _).sum_eq

theorem Summarizes.perm {summary : BookingStatsSummary} (h : Summarizes figures summary) (hperm : figures.Perm figures') :
    Summarizes figures' summary where
  bookings := h.bookings.trans hperm.length_eq
  byStatus status := (h.byStatus status).trans (hperm.countP_eq _)
  listed currency := (h.listed currency).trans (exists_congr fun _ => and_congr_left fun _ => hperm.mem_iff)
  once := h.once
  amount currency := (h.amount currency).trans (figuresRevenue_perm hperm currency)

theorem ReportsOn.perm {groupBy : Option BookingStatsGrouping} {report : BookingStatsTotals} (h : ReportsOn groupBy figures report)
    (hperm : figures.Perm figures') : ReportsOn groupBy figures' report where
  totals := h.totals.perm hperm
  buckets bucket hbucket := (h.buckets bucket hbucket).perm (hperm.filter _)
  periods period := (h.periods period).trans (exists_congr fun _ => and_congr_left fun _ => hperm.mem_iff)
  ascending := h.ascending

end Figures

/-! ### Grouped, then folded -/

section Aggregate

variable {query : BookingStatsQuery} {facts : List StoredFact}

/-- The facts that are selected. -/
def selectedFacts (query : BookingStatsQuery) (facts : List StoredFact) : List StoredFact :=
  facts.filter fun f => query.Selects f.row.checkIn f.row.roomTypeId

def BookingStatsAggregateRow.group (row : BookingStatsAggregateRow) : StatsGroup :=
  ⟨row.period, row.status, row.currency, row.period_date, row.currency_code⟩

theorem aggregate_perm (query : BookingStatsQuery) (facts : List StoredFact) :
    (aggregate query facts).Perm ((groupsOf (·.group query.groupBy) (selectedFacts query facts)).map aggregateRow) :=
  List.perm_insertionSort _ _

/-- What is added up over rows of the aggregate is added up over the facts of their groups. -/
theorem sum_aggregate {weight : BookingStatsAggregateRow → ℕ} {weight' : StoredFact → ℕ}
    (hweight : ∀ g, weight (aggregateRow g) = (g.2.map weight').sum) (p : StatsGroup → Bool) :
    (((aggregate query facts).filter (p ·.group)).map weight).sum =
      (((selectedFacts query facts).filter (p <| ·.group query.groupBy)).map weight').sum := by
  rw [← sum_groupsOf p weight', (((aggregate_perm query facts).filter _).map _).sum_eq, List.filter_map, List.map_map]
  exact congrArg _ (List.map_congr_left fun g _ => hweight g)

theorem exists_aggregate {P : StatsGroup → Prop} : (∃ row ∈ aggregate query facts, P row.group) ↔ ∃ f ∈ selectedFacts query facts, P (f.group query.groupBy) := by
  constructor
  · rintro ⟨row, hrow, hp⟩
    obtain ⟨g, hg, rfl⟩ := List.mem_map.1 ((aggregate_perm query facts).mem_iff.1 hrow)
    obtain ⟨f, hf, hgroup⟩ := List.mem_map.1 (mem_groupsOf.1 hg).1
    exact ⟨f, hf, hgroup ▸ hp⟩
  · rintro ⟨f, hf, hp⟩
    let g := (f.group query.groupBy, (selectedFacts query facts).filter (·.group query.groupBy = f.group query.groupBy))
    have hg : g ∈ groupsOf (·.group query.groupBy) (selectedFacts query facts) := mem_groupsOf.2 ⟨List.mem_map_of_mem hf, rfl⟩
    exact ⟨aggregateRow g, (aggregate_perm query facts).mem_iff.2 (List.mem_map_of_mem hg), hp⟩

theorem sum_ones (facts : List StoredFact) : (facts.map fun _ => 1).sum = facts.length := by
  simp

/-- The counts of some groups. -/
theorem countOf_aggregate (query : BookingStatsQuery) (facts : List StoredFact) (p : StatsGroup → Bool) : countOf ((aggregate query facts).filter (p ·.group)) =
    ((selectedFacts query facts).filter (p <| ·.group query.groupBy)).length := by
  rw [countOf, sum_aggregate (fun g => (sum_ones g.2).symm) p, sum_ones]

/-- It is projected revenue of the currency. -/
def StatsGroup.Brings (currency : String) (g : StatsGroup) : Prop := g.status ∈ bookingStatsRevenueStatuses ∧ g.currency = currency

instance (currency : String) (g : StatsGroup) : Decidable (g.Brings currency) := inferInstanceAs (Decidable (_ ∧ _))

theorem revenueRows_eq (currency : String) (p : StatsGroup → Bool) (rows : Rows) :
    revenueRows currency (rows.filter (p ·.group)) = rows.filter fun row => p row.group && decide (row.group.Brings currency) := by
  rw [revenueRows, List.filter_filter, List.filter_filter]
  refine List.filter_congr fun row _ => ?_
  rw [Bool.and_comm, Bool.and_comm (decide (row.currency = currency)), ← Bool.decide_and]
  rfl

theorem filter_brings (currency : String) (p : StatsGroup → Bool) (facts : List StoredFact) (groupBy : Option BookingStatsGrouping) :
    ((facts.filter (p <| ·.group groupBy)).map StoredFact.figures).filter (·.Brings currency) =
      (facts.filter fun f => p (f.group groupBy) && decide ((f.group groupBy).Brings currency)).map StoredFact.figures := by
  rw [List.filter_map, List.filter_filter]
  exact congrArg _ (List.filter_congr fun f _ => Bool.and_comm _ _)

/-- What some groups bring. -/
theorem revenueOf_aggregate (query : BookingStatsQuery) (facts : List StoredFact) (currency : String) (p : StatsGroup → Bool) : revenueOf currency ((aggregate query facts).filter (p ·.group)) =
    figuresRevenue currency (((selectedFacts query facts).filter (p <| ·.group query.groupBy)).map StoredFact.figures) := by
  rw [revenueOf, figuresRevenue, revenueRows_eq, filter_brings, List.map_map]
  exact sum_aggregate (fun g => rfl) fun g => p g && decide (g.Brings currency)

/-- Some groups, and the figures of their facts. -/
theorem summarizes_of_lists (p : StatsGroup → Bool) {summary : BookingStatsSummary}
    (hcounts : ListsCounts ((aggregate query facts).filter (p ·.group)) summary)
    (hrevenue : ListsRevenue ((aggregate query facts).filter (p ·.group)) summary) :
    Summarizes (((selectedFacts query facts).filter (p <| ·.group query.groupBy)).map StoredFact.figures) summary where
  bookings := by rw [hcounts.bookings, countOf_aggregate, List.length_map]
  byStatus status := by
    have hrows : withStatus status ((aggregate query facts).filter (p ·.group)) =
        (aggregate query facts).filter fun row => p row.group && decide (row.group.status = status) := by
      rw [withStatus, List.filter_filter]
      exact List.filter_congr fun row _ => Bool.and_comm _ _
    rw [hcounts.byStatus, hrows, countOf_aggregate query facts fun g => p g && decide (g.status = status), List.countP_map, List.countP_eq_length_filter,
      List.filter_filter]
    exact congrArg _ (List.filter_congr fun f _ => Bool.and_comm _ _)
  listed currency := by
    have hrows : revenueRows currency ((aggregate query facts).filter (p ·.group)) ≠ [] ↔
        ∃ row ∈ aggregate query facts, p row.group = true ∧ row.group.Brings currency := by
      rw [revenueRows_eq, ne_eq, List.filter_eq_nil_iff]
      simp
    have hfigures : (∃ f ∈ ((selectedFacts query facts).filter (p <| ·.group query.groupBy)).map StoredFact.figures, f.Brings currency) ↔
        ∃ f ∈ selectedFacts query facts, p (f.group query.groupBy) = true ∧ (f.group query.groupBy).Brings currency := by
      simp only [List.mem_map, List.mem_filter]
      constructor
      · rintro ⟨_, ⟨f, ⟨hf, hp⟩, rfl⟩, hbrings⟩
        exact ⟨f, hf, hp, hbrings⟩
      · rintro ⟨f, hf, hp, hbrings⟩
        exact ⟨_, ⟨f, ⟨hf, hp⟩, rfl⟩, hbrings⟩
    rw [hrevenue.listed, hrows, hfigures]
    exact exists_aggregate (P := fun g => p g = true ∧ g.Brings currency)
  once := hrevenue.once
  amount currency := by rw [hrevenue.amount, revenueOf_aggregate]

/-- The figures that are selected. -/
def selectedFigures (query : BookingStatsQuery) (facts : List StoredFact) : List Figures := (selectedFacts query facts).map StoredFact.figures

theorem bounded_aggregate : Bounded (aggregate query facts) ↔ ∀ currency, figuresRevenue currency (selectedFigures query facts) ≤ maxSafeInteger := by
  refine forall_congr' fun currency => ?_
  have hall := revenueOf_aggregate query facts currency fun _ => true
  rw [List.filter_true, List.filter_true] at hall
  rw [hall, selectedFigures]

/-- The summaries are those of the facts. -/
theorem reportsOn_summarize {collator : Collator} {totals : BookingStatsTotals} (hcount : facts.length ≤ maxSafeInteger)
    (h : summarizeBookingStats collator (aggregate query facts) = .ok totals) : ReportsOn query.groupBy (selectedFigures query facts) totals := by
  have hrevenue := reportsRevenue collator (aggregate query facts)
  have hcountOf : countOf (aggregate query facts) ≤ maxSafeInteger := by
    have hall := countOf_aggregate query facts fun _ => true
    rw [List.filter_true, List.filter_true] at hall
    exact hall ▸ (List.length_filter_le _ _).trans hcount
  have hcounts := reportsCounts collator hcountOf
  refine ⟨?_, fun bucket hbucket => ?_, fun period => ?_, hrevenue.ascending totals h⟩
  · have hall : (aggregate query facts).filter (fun _ => true) = aggregate query facts := List.filter_true _
    rw [selectedFigures, ← List.filter_true (selectedFacts query facts)]
    exact summarizes_of_lists (fun _ => true) (hall.symm ▸ hcounts.totals totals h) (hall.symm ▸ hrevenue.totals totals h)
  · rw [selectedFigures, List.filter_map]
    exact summarizes_of_lists (fun g => g.period = some bucket.period) (hcounts.buckets totals h bucket hbucket) (hrevenue.buckets totals h bucket hbucket)
  · rw [hrevenue.periods totals h period]
    refine (exists_aggregate (P := fun g => g.period = some period)).trans ⟨?_, ?_⟩
    · rintro ⟨f, hf, hperiod⟩
      exact ⟨f.figures, List.mem_map_of_mem hf, hperiod⟩
    · rintro ⟨_, hmem, hperiod⟩
      obtain ⟨f, hf, rfl⟩ := List.mem_map.1 hmem
      exact ⟨f, hf, hperiod⟩

end Aggregate

/-! ### The bookings themselves -/

def figuresOf (b : Booking) : Figures := ⟨b.status, b.checkIn, b.priceAmount, b.currency⟩

instance (s : Stock) (b : Booking) (roomId : ℕ) : Decidable (s.InRoom b roomId) := inferInstanceAs (Decidable (∃ t ∈ s.roomTimes, _))

/-- The bookings a query asks for. -/
def bookingsAsked (db : Db) (query : BookingStatsQuery) : List Booking :=
  db.bookings.filter fun b => ∃ room ∈ db.rooms, db.stock.InRoom b room.id ∧ query.Selects b.checkIn (toString room.roomTypeId)

section Agreement

variable {cfg : Config} {v : StatsValidator} {s : Pipeline}

/-- The columns read back. -/
theorem stored_of_inv (h : s.Inv cfg v s.bookings.db.rooms) (hread : Readable v s.bookings.db) : ∃ facts : List StoredFact, facts.map (·.row) = s.facts := by
  have hall : ∀ f ∈ s.facts, f ∈ Set.range StoredFact.row := fun f hf => by
    obtain ⟨change, x, -, hchange, -, rfl, -⟩ := origin_of_delivered h hread (h.facts.latest f hf).1
    obtain ⟨room, hroom, hcurrency⟩ := hchange.booking.currency
    have hdate : hotelDatePattern change.booking.checkIn = true := (Bool.and_eq_true_iff.1 hchange.booking.stay.first).1
    have hcode : currencyPattern change.booking.currency = true := hcurrency ▸ (hread.rooms room hroom).currency.1
    exact ⟨⟨_, (Bool.and_eq_true_iff.1 hdate).1, hcode⟩, rfl⟩
  exact (Set.range_list_map StoredFact.row).symm.subset hall

/-- A booking is in one room: it is asked for if its fact is. -/
theorem selects_iff (h : s.Inv cfg v s.bookings.db.rooms) (hrooms : Table.UniqueBy (·.id) s.bookings.db.rooms) (query : BookingStatsQuery) {b : Booking}
    {f : BookingStatsFactRow} (hf : FactOf s.bookings.db b f) : query.Selects f.checkIn f.roomTypeId ↔
      ∃ room ∈ s.bookings.db.rooms, s.bookings.db.stock.InRoom b room.id ∧ query.Selects b.checkIn (toString room.roomTypeId) := by
  obtain ⟨room, hroom, hin, -, htype⟩ := hf.room
  rw [hf.stay.1, htype]
  constructor
  · exact fun hselects => ⟨room, hroom, hin, hselects⟩
  · rintro ⟨room', hroom', hin', hselects⟩
    obtain ⟨t, ht, hid, hof⟩ := hin
    obtain ⟨t', ht', hid', hof'⟩ := hin'
    obtain rfl : t' = t := h.windows.good.inv.ids t' ht' t ht (hid'.trans hid.symm)
    obtain rfl : room' = room := hrooms room' hroom' room hroom (hof'.symm.trans hof)
    exact hselects

/-- Each booking has one fact, and each fact a booking. -/
theorem stored_match (h : s.Inv cfg v s.bookings.db.rooms) (hread : Readable v s.bookings.db) (hcaught : s.CaughtUp)
    (hversions : ∀ b ∈ s.bookings.db.bookings, b.version ≤ maxSafeInteger) {facts : List StoredFact} (hfacts : facts.map (·.row) = s.facts) :
    ∃ zs, zs.Perm facts ∧ List.Forall₂ (fun b fact => FactOf s.bookings.db b fact.row) s.bookings.db.bookings zs := by
  have htrue := tellsTrue_of_inv h hread
  have hkeys : (facts.map (·.row.bookingPublicId)).Nodup := by
    have hmap : facts.map (·.row.bookingPublicId) = s.facts.map (·.bookingPublicId) := by
      rw [← hfacts, List.map_map]
      rfl
    exact hmap ▸ htrue.once
  refine Table.exists_forall₂_perm h.audit.promised.good.inv.1.publicIds hkeys (fun b hb => ?_) fun fact hfact => ?_
  · obtain ⟨f, hf, hof⟩ := factOf_of_caughtUp h hread hcaught hb (hversions b hb)
    obtain ⟨fact, hfact, rfl⟩ := List.mem_map.1 (hfacts.symm ▸ hf)
    exact ⟨fact, hfact, hof.publicId, hof⟩
  · obtain ⟨b, hb, hid, -⟩ := htrue.past fact.row (hfacts ▸ List.mem_map_of_mem hfact)
    exact ⟨b, hb, hid.symm⟩

/-- The facts that are selected are of the bookings that are asked for. -/
theorem selectedFigures_perm (h : s.Inv cfg v s.bookings.db.rooms) (hrooms : Table.UniqueBy (·.id) s.bookings.db.rooms)
    (hread : Readable v s.bookings.db) (hcaught : s.CaughtUp) (hversions : ∀ b ∈ s.bookings.db.bookings, b.version ≤ maxSafeInteger)
    {facts : List StoredFact} (hfacts : facts.map (·.row) = s.facts) (query : BookingStatsQuery) :
    (selectedFigures query facts).Perm ((bookingsAsked s.bookings.db query).map figuresOf) := by
  obtain ⟨zs, hperm, hmatch⟩ := stored_match h hread hcaught hversions hfacts
  refine ((hperm.symm.filter _).map _).trans (List.Perm.of_eq ?_)
  -- facts and bookings that match have the same figures, and are both selected or neither is
  have hselected : List.Forall₂ (fun b fact => FactOf s.bookings.db b fact.row) (bookingsAsked s.bookings.db query)
      (zs.filter fun f => query.Selects f.row.checkIn f.row.roomTypeId) :=
    List.rel_filter (fun b fact hof => by simpa using (selects_iff h hrooms query hof).symm) hmatch
  rw [← List.forall₂_eq_eq_eq, List.forall₂_map_left_iff, List.forall₂_map_right_iff]
  refine hselected.flip.imp fun fact b hof => ?_
  rw [StoredFact.figures, figuresOf, hof.status, hof.stay.1, hof.price.1, hof.price.2]

end Agreement

/-! ### The answer -/

/-- The range has a day, and no more than the report may have. -/
def BookingStatsQuery.InRange (query : BookingStatsQuery) : Prop :=
  ∃ first ∈ parseHotelDate query.fromDate, ∃ last ∈ parseHotelDate query.toDate, 1 ≤ last - first ∧ last - first ≤ bookingStatsMaxRangeDays

/-- What the service answers, if the bookings are of these figures. -/
def Answers (query : BookingStatsQuery) (figures : List Figures) : Except BookingStatsError BookingStatsReport → Prop
  | .ok answer => query.InRange ∧ (∀ currency, figuresRevenue currency figures ≤ maxSafeInteger) ∧ ReportsOn query.groupBy figures answer.toBookingStatsTotals
  | .error error => error = rangeInvalid ∧ ¬ query.InRange ∨
      error = amountOutOfRange ∧ query.InRange ∧ ∃ currency, maxSafeInteger < figuresRevenue currency figures

theorem Answers.perm {query : BookingStatsQuery} {figures figures' : List Figures} {result : Except BookingStatsError BookingStatsReport}
    (h : Answers query figures result) (hperm : figures.Perm figures') : Answers query figures' result := by
  cases result with
  | ok answer => exact ⟨h.1, fun currency => figuresRevenue_perm hperm currency ▸ h.2.1 currency, h.2.2.perm hperm⟩
  | error error =>
    refine h.imp_right fun ⟨herror, hrange, currency, hover⟩ => ⟨herror, hrange, currency, ?_⟩
    exact figuresRevenue_perm hperm currency ▸ hover

/-- Whole days. -/
theorem span_eq (engine : String → Option ℤ) {fromDate toDate : String} {first last : ℤ} (hfirst : parseHotelDate fromDate = some first)
    (hlast : parseHotelDate toDate = some last) : hotelDateSpanDays engine fromDate toDate = some (last - first) := by
  obtain ⟨c, hc, rfl⟩ := parseHotelDate_eq_some_iff.1 hfirst
  obtain ⟨d, hd, rfl⟩ := parseHotelDate_eq_some_iff.1 hlast
  rw [hotelDateSpanDays, newDate_spelled hd, newDate_spelled hc]
  simp only [Option.bind_eq_bind, Option.bind_some, ← Int.sub_mul, mathRound_days]
  rfl

theorem any_span_iff (engine : String → Option ℤ) (query : BookingStatsQuery) :
    (hotelDateSpanDays engine query.fromDate query.toDate).any (fun days => 1 ≤ days ∧ days ≤ bookingStatsMaxRangeDays) = true ↔ query.InRange := by
  obtain ⟨first, hfirst⟩ := Option.isSome_iff_exists.1 (Bool.and_eq_true_iff.1 query.from_date).2
  obtain ⟨last, hlast⟩ := Option.isSome_iff_exists.1 (Bool.and_eq_true_iff.1 query.to_date).2
  rw [span_eq engine hfirst hlast, BookingStatsQuery.InRange, hfirst, hlast]
  simp

/-- The service answers for the facts it finds. -/
theorem report_answers (engine : String → Option ℤ) (collator : Collator) (query : BookingStatsQuery) {facts : List StoredFact} (newest : List StoredFact)
    (hcount : facts.length ≤ maxSafeInteger) : Answers query (selectedFigures query facts) (report engine collator true query facts newest) := by
  by_cases hrange : query.InRange
  · have hspan := (any_span_iff engine query).2 hrange
    cases htotals : summarizeBookingStats collator (aggregate query facts) with
    | ok totals =>
      have hbounded : Bounded (aggregate query facts) := by
        by_contra hb
        rw [summarize_error collator hb] at htotals
        cases htotals
      have hreport : report engine collator true query facts newest = .ok { totals with
          fromDate := query.fromDate, toDate := query.toDate, roomTypeId := query.roomTypeId, groupBy := query.groupBy
          asOf := (asOf newest).map fun ms => String.ofList (isoInstant ms) } := by
        simp only [report, hspan, htotals]
        rfl
      rw [hreport]
      exact ⟨hrange, bounded_aggregate.1 hbounded, reportsOn_summarize hcount htotals⟩
    | error error =>
      have hover : ¬ Bounded (aggregate query facts) := fun hb => by
        rw [summarize_eq collator hb] at htotals
        cases htotals
      have hreport : report engine collator true query facts newest = .error error := by
        simp only [report, hspan, htotals]
        rfl
      rw [hreport]
      rw [summarize_error collator hover] at htotals
      have hsome : ∃ currency, maxSafeInteger < figuresRevenue currency (selectedFigures query facts) := by
        simpa [bounded_aggregate] using hover
      exact .inr ⟨(Except.error.inj htotals).symm, hrange, hsome⟩
  · have hspan := mt (any_span_iff engine query).1 hrange
    have hreport : report engine collator true query facts newest = .error rangeInvalid := by
      simp only [report, Bool.not_eq_true _ ▸ hspan]
      rfl
    rw [hreport]
    exact .inl ⟨rfl, hrange⟩

/-- **The report is of the bookings.** With the read model caught up, it says what the table of bookings would. -/
theorem report_agrees (engine : String → Option ℤ) (collator : Collator) (cfg : Config) (hon : cfg.lifecycleEnabled = true) (v : StatsValidator)
    (s : Pipeline) (h : (pipeline cfg v).Reachable (Supplied cfg v) s) (hrooms : Table.UniqueBy (·.id) s.bookings.db.rooms)
    (hread : Readable v s.bookings.db) (hcaught : s.CaughtUp) (hversions : ∀ b ∈ s.bookings.db.bookings, b.version ≤ maxSafeInteger)
    (hcount : s.bookings.db.bookings.length ≤ maxSafeInteger) : ∃ facts : List StoredFact, facts.map (·.row) = s.facts ∧
      ∀ query newest, Answers query ((bookingsAsked s.bookings.db query).map figuresOf) (report engine collator true query facts newest) := by
  have hinv := pipeline_inv hon h
  obtain ⟨facts, hfacts⟩ := stored_of_inv hinv hread
  have hlength : facts.length = s.bookings.db.bookings.length := by
    obtain ⟨zs, hperm, hmatch⟩ := stored_match hinv hread hcaught hversions hfacts
    rw [← hperm.length_eq, hmatch.length_eq]
  refine ⟨facts, hfacts, fun query newest => ?_⟩
  exact (report_answers engine collator query newest (hlength ▸ hcount)).perm (selectedFigures_perm hinv hrooms hread hcaught hversions hfacts query)

/-- The rooms of a type in October 2026, by months. -/
def octoberQuery : BookingStatsQuery := ⟨"2026-10-01", "2026-11-01", some "7", some .month, by decide, by decide⟩

theorem octoberFigures : (bookingsAsked fullStreamTold.bookings.db octoberQuery).map figuresOf =
    [⟨.cancelledByAdmin, "2026-10-05", 3000000, "VND"⟩] := by
  decide +kernel

theorem report_agrees_fullStream : octoberQuery.InRange ∧ ∃ facts : List StoredFact, facts.map (·.row) = fullStreamTold.facts ∧
    Answers octoberQuery [⟨.cancelledByAdmin, "2026-10-05", 3000000, "VND"⟩]
      (report (fun _ => none) codePoints true octoberQuery facts facts) := by
  obtain ⟨hbookings, hrooms, -⟩ := fullStreamTold_bookings
  have hversions : ∀ b ∈ fullStreamTold.bookings.db.bookings, b.version ≤ maxSafeInteger := fun b hb => by
    have hmem : (b.status, b.version) ∈ fullStreamTold.bookings.db.bookings.map (fun b => (b.status, b.version)) := List.mem_map_of_mem hb
    rw [hbookings, List.mem_singleton, Prod.mk.injEq] at hmem
    rw [hmem.2]
    decide
  have hcount : fullStreamTold.bookings.db.bookings.length ≤ maxSafeInteger := by
    have hlength := congrArg List.length hbookings
    rw [List.length_map] at hlength
    rw [hlength]
    decide
  obtain ⟨facts, hfacts, hanswers⟩ := report_agrees (fun _ => none) codePoints loudConfig rfl streamValidator _ fullStreamTold_reachable
    (hrooms ▸ Table.UniqueBy.of_nodup (by decide)) fullStreamTold_readable fullStreamTold_caughtUp hversions hcount
  exact ⟨⟨_, rfl, _, rfl, by decide, by decide⟩, facts, hfacts, octoberFigures ▸ hanswers octoberQuery facts⟩

end HotelBackend.Reports
