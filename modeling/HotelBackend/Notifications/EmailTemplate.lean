import HotelBackend.Notifications.NotificationEvent

/-!
# Mail templates

`EmailTemplateService`: the catalogs, the variables of an event, and the mail they make. A
template fails with a plain `Error`, of which only the message is kept here.
-/

namespace HotelBackend.Notifications

open HotelBackend.Common
open HotelBackend.Theory
open HotelBackend.Bookings

/-! ### Catalogs -/

inductive EmailDeliveryLocale where
  | english
  | vietnamese
  deriving DecidableEq, Repr

/-- The templates, a template for each event type. -/
inductive NotificationTemplateKey where
  | confirmed
  | rejected
  | changed
  | cancelledByAdmin
  deriving DecidableEq, Repr

def NotificationTemplateKey.text : NotificationTemplateKey → String
  | confirmed => "booking.confirmed.v1"
  | rejected => "booking.rejected.v1"
  | changed => "booking.changed.v1"
  | cancelledByAdmin => "booking.cancelled-by-admin.v1"

def notificationTemplateRegistry : NotificationEventType → NotificationTemplateKey
  | .confirmed => .confirmed
  | .rejected => .rejected
  | .changed => .changed
  | .cancelledByAdmin => .cancelledByAdmin

structure NotificationTemplateDefinition where
  subject : String
  text : String
  html : String

abbrev NotificationTemplateCatalog := NotificationTemplateKey → NotificationTemplateDefinition

/-- `locales/en/notifications.json`. -/
def englishCatalog : NotificationTemplateCatalog
  | .confirmed => {
    subject := "Booking \x7b\x7bbookingId\x7d\x7d confirmed"
    text := "Your booking \x7b\x7bbookingId\x7d\x7d has been confirmed.\n\n" ++
      "Room: \x7b\x7broomNumber\x7d\x7d\n" ++
      "Stay: \x7b\x7bcheckIn\x7d\x7d to \x7b\x7bcheckOut\x7d\x7d\nStatus: \x7b\x7bstatus\x7d\x7d" ++
      "\nPrice: \x7b\x7bpriceAmount\x7d\x7d \x7b\x7bcurrency\x7d\x7d"
    html := "<p>Your booking <strong>\x7b\x7bbookingId\x7d\x7d</strong> has been confirmed.</p><dl><dt>" ++
      "Room</dt><dd>\x7b\x7broomNumber\x7d\x7d</dd><dt>Stay</dt><dd>" ++
      "\x7b\x7bcheckIn\x7d\x7d to \x7b\x7bcheckOut\x7d\x7d</dd><dt>Status</dt><dd>" ++
      "\x7b\x7bstatus\x7d\x7d</dd><dt>Price</dt><dd>" ++
      "\x7b\x7bpriceAmount\x7d\x7d \x7b\x7bcurrency\x7d\x7d</dd></dl>" }
  | .rejected => {
    subject := "Booking \x7b\x7bbookingId\x7d\x7d rejected"
    text := "Your booking \x7b\x7bbookingId\x7d\x7d was rejected.\n\nRoom: \x7b\x7broomNumber\x7d\x7d\n" ++
      "Stay: \x7b\x7bcheckIn\x7d\x7d to \x7b\x7bcheckOut\x7d\x7d\nStatus: \x7b\x7bstatus\x7d\x7d" ++
      "\nReason: \x7b\x7breason\x7d\x7d"
    html := "<p>Your booking <strong>\x7b\x7bbookingId\x7d\x7d</strong> was rejected.</p><dl><dt>Room" ++
      "</dt><dd>\x7b\x7broomNumber\x7d\x7d</dd><dt>Stay</dt><dd>" ++
      "\x7b\x7bcheckIn\x7d\x7d to \x7b\x7bcheckOut\x7d\x7d</dd><dt>Status</dt><dd>" ++
      "\x7b\x7bstatus\x7d\x7d</dd><dt>Reason</dt><dd>\x7b\x7breason\x7d\x7d</dd></dl>" }
  | .changed => {
    subject := "Booking \x7b\x7bbookingId\x7d\x7d updated"
    text := "Your booking \x7b\x7bbookingId\x7d\x7d was updated.\n\n" ++
      "Previous room: \x7b\x7bbeforeRoom\x7d\x7d\n" ++
      "Previous stay: \x7b\x7bbeforeCheckIn\x7d\x7d to \x7b\x7bbeforeCheckOut\x7d\x7d\n" ++
      "New room: \x7b\x7broomNumber\x7d\x7d\n" ++
      "New stay: \x7b\x7bafterCheckIn\x7d\x7d to \x7b\x7bafterCheckOut\x7d\x7d\n" ++
      "Status: \x7b\x7bstatus\x7d\x7d\n" ++
      "Price: \x7b\x7bpriceAmount\x7d\x7d \x7b\x7bcurrency\x7d\x7d\n" ++
      "Reason: \x7b\x7breason\x7d\x7d"
    html := "<p>Your booking <strong>\x7b\x7bbookingId\x7d\x7d</strong> was updated.</p><dl><dt>" ++
      "Previous room</dt><dd>\x7b\x7bbeforeRoom\x7d\x7d</dd><dt>Previous stay</dt><dd>" ++
      "\x7b\x7bbeforeCheckIn\x7d\x7d to \x7b\x7bbeforeCheckOut\x7d\x7d</dd><dt>New room</dt><dd>" ++
      "\x7b\x7broomNumber\x7d\x7d</dd><dt>New stay</dt><dd>" ++
      "\x7b\x7bafterCheckIn\x7d\x7d to \x7b\x7bafterCheckOut\x7d\x7d</dd><dt>Status</dt><dd>" ++
      "\x7b\x7bstatus\x7d\x7d</dd><dt>Price</dt><dd>" ++
      "\x7b\x7bpriceAmount\x7d\x7d \x7b\x7bcurrency\x7d\x7d</dd><dt>Reason</dt><dd>" ++
      "\x7b\x7breason\x7d\x7d</dd></dl>" }
  | .cancelledByAdmin => {
    subject := "Booking \x7b\x7bbookingId\x7d\x7d cancelled"
    text := "Your booking \x7b\x7bbookingId\x7d\x7d was cancelled by an administrator.\n\n" ++
      "Room: \x7b\x7broomNumber\x7d\x7d\n" ++
      "Stay: \x7b\x7bcheckIn\x7d\x7d to \x7b\x7bcheckOut\x7d\x7d\nStatus: \x7b\x7bstatus\x7d\x7d" ++
      "\nReason: \x7b\x7breason\x7d\x7d"
    html := "<p>Your booking <strong>\x7b\x7bbookingId\x7d\x7d</strong> " ++
      "was cancelled by an administrator.</p><dl><dt>Room</dt><dd>\x7b\x7broomNumber\x7d\x7d" ++
      "</dd><dt>Stay</dt><dd>\x7b\x7bcheckIn\x7d\x7d to \x7b\x7bcheckOut\x7d\x7d</dd><dt>Status" ++
      "</dt><dd>\x7b\x7bstatus\x7d\x7d</dd><dt>Reason</dt><dd>\x7b\x7breason\x7d\x7d</dd></dl>" }

/-- `locales/vi/notifications.json`. -/
def vietnameseCatalog : NotificationTemplateCatalog
  | .confirmed => {
    subject := "Đặt phòng \x7b\x7bbookingId\x7d\x7d đã được xác nhận"
    text := "Đặt phòng \x7b\x7bbookingId\x7d\x7d của bạn đã được xác nhận.\n\n" ++
      "Phòng: \x7b\x7broomNumber\x7d\x7d\n" ++
      "Kỳ lưu trú: \x7b\x7bcheckIn\x7d\x7d đến \x7b\x7bcheckOut\x7d\x7d\n" ++
      "Trạng thái: \x7b\x7bstatus\x7d\x7d\n" ++
      "Giá: \x7b\x7bpriceAmount\x7d\x7d \x7b\x7bcurrency\x7d\x7d"
    html := "<p>Đặt phòng <strong>\x7b\x7bbookingId\x7d\x7d</strong> của bạn đã được xác nhận.</p><dl>" ++
      "<dt>Phòng</dt><dd>\x7b\x7broomNumber\x7d\x7d</dd><dt>Kỳ lưu trú</dt><dd>" ++
      "\x7b\x7bcheckIn\x7d\x7d đến \x7b\x7bcheckOut\x7d\x7d</dd><dt>Trạng thái</dt><dd>" ++
      "\x7b\x7bstatus\x7d\x7d</dd><dt>Giá</dt><dd>" ++
      "\x7b\x7bpriceAmount\x7d\x7d \x7b\x7bcurrency\x7d\x7d</dd></dl>" }
  | .rejected => {
    subject := "Đặt phòng \x7b\x7bbookingId\x7d\x7d đã bị từ chối"
    text := "Đặt phòng \x7b\x7bbookingId\x7d\x7d của bạn đã bị từ chối.\n\n" ++
      "Phòng: \x7b\x7broomNumber\x7d\x7d\n" ++
      "Kỳ lưu trú: \x7b\x7bcheckIn\x7d\x7d đến \x7b\x7bcheckOut\x7d\x7d\n" ++
      "Trạng thái: \x7b\x7bstatus\x7d\x7d\nLý do: \x7b\x7breason\x7d\x7d"
    html := "<p>Đặt phòng <strong>\x7b\x7bbookingId\x7d\x7d</strong> của bạn đã bị từ chối.</p><dl><dt>" ++
      "Phòng</dt><dd>\x7b\x7broomNumber\x7d\x7d</dd><dt>Kỳ lưu trú</dt><dd>" ++
      "\x7b\x7bcheckIn\x7d\x7d đến \x7b\x7bcheckOut\x7d\x7d</dd><dt>Trạng thái</dt><dd>" ++
      "\x7b\x7bstatus\x7d\x7d</dd><dt>Lý do</dt><dd>\x7b\x7breason\x7d\x7d</dd></dl>" }
  | .changed => {
    subject := "Đặt phòng \x7b\x7bbookingId\x7d\x7d đã được cập nhật"
    text := "Đặt phòng \x7b\x7bbookingId\x7d\x7d của bạn đã được cập nhật.\n\n" ++
      "Phòng trước: \x7b\x7bbeforeRoom\x7d\x7d\n" ++
      "Kỳ lưu trú trước: \x7b\x7bbeforeCheckIn\x7d\x7d đến \x7b\x7bbeforeCheckOut\x7d\x7d\n" ++
      "Phòng mới: \x7b\x7broomNumber\x7d\x7d\n" ++
      "Kỳ lưu trú mới: \x7b\x7bafterCheckIn\x7d\x7d đến \x7b\x7bafterCheckOut\x7d\x7d\n" ++
      "Trạng thái: \x7b\x7bstatus\x7d\x7d\n" ++
      "Giá: \x7b\x7bpriceAmount\x7d\x7d \x7b\x7bcurrency\x7d\x7d\nLý do: \x7b\x7breason\x7d\x7d"
    html := "<p>Đặt phòng <strong>\x7b\x7bbookingId\x7d\x7d</strong> của bạn đã được cập nhật.</p><dl>" ++
      "<dt>Phòng trước</dt><dd>\x7b\x7bbeforeRoom\x7d\x7d</dd><dt>Kỳ lưu trú trước</dt><dd>" ++
      "\x7b\x7bbeforeCheckIn\x7d\x7d đến \x7b\x7bbeforeCheckOut\x7d\x7d</dd><dt>Phòng mới</dt>" ++
      "<dd>\x7b\x7broomNumber\x7d\x7d</dd><dt>Kỳ lưu trú mới</dt><dd>" ++
      "\x7b\x7bafterCheckIn\x7d\x7d đến \x7b\x7bafterCheckOut\x7d\x7d</dd><dt>Trạng thái</dt><dd>" ++
      "\x7b\x7bstatus\x7d\x7d</dd><dt>Giá</dt><dd>" ++
      "\x7b\x7bpriceAmount\x7d\x7d \x7b\x7bcurrency\x7d\x7d</dd><dt>Lý do</dt><dd>" ++
      "\x7b\x7breason\x7d\x7d</dd></dl>" }
  | .cancelledByAdmin => {
    subject := "Đặt phòng \x7b\x7bbookingId\x7d\x7d đã bị hủy"
    text := "Đặt phòng \x7b\x7bbookingId\x7d\x7d của bạn đã bị quản trị viên hủy.\n\n" ++
      "Phòng: \x7b\x7broomNumber\x7d\x7d\n" ++
      "Kỳ lưu trú: \x7b\x7bcheckIn\x7d\x7d đến \x7b\x7bcheckOut\x7d\x7d\n" ++
      "Trạng thái: \x7b\x7bstatus\x7d\x7d\nLý do: \x7b\x7breason\x7d\x7d"
    html := "<p>Đặt phòng <strong>\x7b\x7bbookingId\x7d\x7d</strong> của bạn đã bị quản trị viên hủy." ++
      "</p><dl><dt>Phòng</dt><dd>\x7b\x7broomNumber\x7d\x7d</dd><dt>Kỳ lưu trú</dt><dd>" ++
      "\x7b\x7bcheckIn\x7d\x7d đến \x7b\x7bcheckOut\x7d\x7d</dd><dt>Trạng thái</dt><dd>" ++
      "\x7b\x7bstatus\x7d\x7d</dd><dt>Lý do</dt><dd>\x7b\x7breason\x7d\x7d</dd></dl>" }

def catalogs : EmailDeliveryLocale → NotificationTemplateCatalog
  | .english => englishCatalog
  | .vietnamese => vietnameseCatalog

/-- The variables a template may use. -/
def expectedTemplateVariables : NotificationTemplateKey → List String
  | .confirmed => ["bookingId", "roomNumber", "checkIn", "checkOut", "status", "priceAmount", "currency"]
  | .rejected => ["bookingId", "roomNumber", "checkIn", "checkOut", "status", "reason"]
  | .changed => ["bookingId", "beforeRoom", "beforeCheckIn", "beforeCheckOut", "roomNumber", "afterCheckIn", "afterCheckOut",
      "status", "priceAmount", "currency", "reason"]
  | .cancelledByAdmin => ["bookingId", "roomNumber", "checkIn", "checkOut", "status", "reason"]

/-! ### Interpolation -/

/-- A piece of a template. -/
inductive Segment where
  | literal (c : Char)
  | placeholder (name : String)
  deriving DecidableEq, Repr

/-- `[A-Za-z]` -/
def isLetter (c : Char) : Bool := ('A' ≤ c && c ≤ 'Z') || ('a' ≤ c && c ≤ 'z')

/-- `[A-Za-z0-9]` -/
def isAlphanumeric (c : Char) : Bool := isLetter c || isDigit c

/-- A match of `placeholderPattern` at the start: its name, and what follows. -/
def matchPlaceholder : List Char → Option (String × List Char)
  | '\x7b' :: '\x7b' :: c :: rest =>
    if isLetter c then
      match rest.dropWhile isAlphanumeric with
      | '\x7d' :: '\x7d' :: after => some (String.ofList (c :: rest.takeWhile isAlphanumeric), after)
      | _ => none
    else none
  | _ => none

/-- The first `fuel` pieces. -/
def segmentsOf : ℕ → List Char → List Segment
  | 0, _ | _, [] => []
  | fuel + 1, c :: cs =>
    match matchPlaceholder (c :: cs) with
    | some (name, after) => .placeholder name :: segmentsOf fuel after
    | none => .literal c :: segmentsOf fuel cs

/-- The pieces of a template; it has at most one for each character. -/
def segments (template : String) : List Segment := segmentsOf template.toList.length template.toList

/-- The variable a piece stands for. -/
def Segment.name : Segment → Option String
  | literal _ => none
  | placeholder name => some name

/-- The variables of a template. -/
def placeholders (template : String) : List String := (segments template).filterMap Segment.name

/-- `variables[name]` -/
def lookup (values : List (String × String)) (name : String) : Option String := (values.find? (·.1 = name)).map (·.2)

/-- A piece with its variable in place. -/
def renderSegment (values : List (String × String)) (escape : String → Except String String) : Segment → Except String (List Char)
  | .literal c => .ok [c]
  | .placeholder name => do
    let value ← Result.orThrow (lookup values name) "Notification template variable is unavailable."
    let escaped ← escape value
    return escaped.toList

def interpolate (template : String) (values : List (String × String)) (escape : String → Except String String) :
    Except String String := do
  let parts ← (segments template).mapM (renderSegment values escape)
  return String.ofList parts.flatten

/-- A control character. -/
def isHeaderControl (c : Char) : Bool := c.toNat < 32 || c.toNat = 127

def hasUnsafeHeaderCharacter (value : String) : Bool := value.toList.any isHeaderControl

def escapeHeaderText (value : String) : Except String String := do
  Result.require (!hasUnsafeHeaderCharacter value) "Notification header variable is not safe."
  return value

/-- Line ends become line feeds. -/
def escapePlainText (value : String) : Except String String := .ok ((value.replace "\r\n" "\n").replace "\r" "\n")

def escapeHtml (value : String) : Except String String :=
  .ok (((((value.replace "&" "&amp;").replace "<" "&lt;").replace ">" "&gt;").replace "\"" "&quot;").replace "'" "&#39;")

/-! ### Rendering -/

/-- The currencies without a minor unit. -/
def zeroDecimalCurrencies : List String := ["VND"]

/-- Digits from the right, in groups of three. -/
def groupReversed (separator : Char) : List Char → List Char
  | a :: b :: c :: d :: rest => a :: b :: c :: separator :: groupReversed separator (d :: rest)
  | digits => digits

/-- The decimal digits, in groups of three from the right. -/
def groupDigits (separator : Char) (digits : List Char) : List Char := (groupReversed separator digits.reverse).reverse

example : groupDigits ',' ['1', '2', '3', '4', '5', '6', '7'] = ['1', ',', '2', '3', '4', ',', '5', '6', '7'] := by decide

/-- `Intl.NumberFormat` groups with a comma in `en-US` and with a dot in `vi-VN`. -/
def EmailDeliveryLocale.groupSeparator : EmailDeliveryLocale → Char
  | english => ','
  | vietnamese => '.'

def formatAmount (price : NotificationPriceSnapshot) (locale : EmailDeliveryLocale) : Except String String := do
  Result.require (price.currency ∈ zeroDecimalCurrencies) "Notification price currency is unsupported."
  return String.ofList (groupDigits locale.groupSeparator (toString price.amount).toList)

/-- What the event cannot carry. -/
structure NotificationRenderContext where
  beforeRoomNumber : Option String

/-- `addChangeVariables`, of a change only. -/
def changeVariables (event : NotificationEvent) (context : NotificationRenderContext) : Except String (List (String × String)) :=
  match event.change with
  | some (before, after) => do
    let beforeRoomNumber ← Result.orThrow context.beforeRoomNumber "Notification change context is incomplete."
    return [("beforeRoom", beforeRoomNumber), ("beforeCheckIn", before.checkIn), ("beforeCheckOut", before.checkOut),
      ("afterCheckIn", after.checkIn), ("afterCheckOut", after.checkOut)]
  | none => .ok []

/-- The variables the event itself carries. -/
def eventVariables (event : NotificationEvent) (priceAmount : String) : List (String × String) :=
  [("bookingId", event.base.bookingId), ("roomNumber", event.booking.room.roomNumber), ("checkIn", event.booking.checkIn),
    ("checkOut", event.booking.checkOut), ("status", event.booking.status.text), ("priceAmount", priceAmount),
    ("currency", event.booking.price.currency)] ++ (event.reason.map fun r => ("reason", r)).toList

def variablesFor (event : NotificationEvent) (context : NotificationRenderContext) (locale : EmailDeliveryLocale) :
    Except String (List (String × String)) := do
  let priceAmount ← formatAmount event.booking.price locale
  let change ← changeVariables event context
  return eventVariables event priceAmount ++ change

structure RenderedEmailContent where
  subject : String
  text : String
  html : String

def render (catalogs : EmailDeliveryLocale → NotificationTemplateCatalog) (event : NotificationEvent)
    (templateKey : NotificationTemplateKey) (locale : EmailDeliveryLocale) (context : NotificationRenderContext) :
    Except String RenderedEmailContent := do
  Result.require (notificationTemplateRegistry event.type = templateKey) "Notification event and template key do not match."
  let template := catalogs locale templateKey
  let values ← variablesFor event context locale
  let subject ← interpolate template.subject values escapeHeaderText
  Result.require (!hasUnsafeHeaderCharacter subject) "Rendered notification subject is not header safe."
  let text ← interpolate template.text values escapePlainText
  let html ← interpolate template.html values escapeHtml
  return ⟨subject, text, html⟩

/-- `[0-9a-f]`, in either case -/
def isHexDigit (c : Char) : Bool := isDigit c || ('a' ≤ c && c ≤ 'f') || ('A' ≤ c && c ≤ 'F')

def isHyphen (c : Char) : Bool := c = '-'

/-- The characters of a canonical UUID, in order. -/
def uuidShape : List (Char → Bool) :=
  List.replicate 8 isHexDigit ++ isHyphen :: List.replicate 4 isHexDigit ++ isHyphen ::
    (fun c => '1' ≤ c && c ≤ '5') :: List.replicate 3 isHexDigit ++ isHyphen ::
    (fun c => c ∈ ['8', '9', 'a', 'b', 'A', 'B']) :: List.replicate 3 isHexDigit ++ isHyphen :: List.replicate 12 isHexDigit

/-- The characters fit the classes, one by one. -/
def fits : List (Char → Bool) → List Char → Bool
  | [], [] => true
  | p :: ps, c :: cs => p c && fits ps cs
  | _, _ => false

def canonicalUuidPattern (value : String) : Bool := fits uuidShape value.toList

/-- The mailbox mails are sent from, and its domain. -/
structure MailSender where
  name : String
  address : String
  domain : String

structure PreparedEmailMessage extends RenderedEmailContent where
  sender : MailSender
  recipient : String
  messageId : String
  notificationId : String

def buildMessage (sender : MailSender) (outboxEventId recipient : String) (event : NotificationEvent)
    (templateKey : NotificationTemplateKey) (locale : EmailDeliveryLocale) (context : NotificationRenderContext) :
    Except String PreparedEmailMessage := do
  Result.require (canonicalUuidPattern outboxEventId) "Notification ID is not a canonical UUID."
  let notificationId := outboxEventId.toLower
  let content ← render catalogs event templateKey locale context
  return { content with sender := sender, recipient := recipient, messageId := s!"<notification.{notificationId}@{sender.domain}>",
                        notificationId := notificationId }

/-! ### When a mail can be made -/

section Render

variable {values : List (String × String)} {escape : String → Except String String} {p : Char → Prop}

/-- A template is interpolated if its variables are there and can be escaped; what holds of the
characters of the template and of the escaped values holds of the result. -/
theorem interpolate_ok {template : String} (hliteral : ∀ c, .literal c ∈ segments template → p c)
    (hvalue : ∀ name ∈ placeholders template, ∃ value escaped, lookup values name = some value ∧ escape value = .ok escaped ∧
      ∀ c ∈ escaped.toList, p c) :
    ∃ out, interpolate template values escape = .ok out ∧ ∀ c ∈ out.toList, p c := by
  have hparts : ∀ l : List Segment, (∀ c, .literal c ∈ l → p c) →
      (∀ name, .placeholder name ∈ l → ∃ value escaped, lookup values name = some value ∧ escape value = .ok escaped ∧
        ∀ c ∈ escaped.toList, p c) →
      ∃ parts, l.mapM (renderSegment values escape) = .ok parts ∧ ∀ c ∈ parts.flatten, p c := by
    intro l hlit hval
    induction l with
    | nil => exact ⟨[], rfl, fun c hc => absurd hc List.not_mem_nil⟩
    | cons piece l ih =>
      obtain ⟨parts, hparts, hp⟩ := ih (fun c hc => hlit c (List.mem_cons_of_mem _ hc)) fun n hn => hval n (List.mem_cons_of_mem _ hn)
      have hhead : ∃ part, renderSegment values escape piece = .ok part ∧ ∀ c ∈ part, p c := by
        cases piece with
        | literal c => exact ⟨[c], rfl, fun d hd => List.mem_singleton.1 hd ▸ hlit c List.mem_cons_self⟩
        | placeholder name =>
          obtain ⟨value, escaped, hlookup, hescape, hp⟩ := hval name List.mem_cons_self
          refine ⟨escaped.toList, ?_, hp⟩
          simp only [renderSegment, hlookup, Result.orThrow, hescape, bind, Except.bind, pure, Except.pure]
      obtain ⟨part, hpart, hp'⟩ := hhead
      refine ⟨part :: parts, ?_, ?_⟩
      · simp only [List.mapM_cons, hpart, hparts, bind, Except.bind, pure, Except.pure]
      · simp only [List.flatten_cons]
        exact List.forall_mem_append.2 ⟨hp', hp⟩
  obtain ⟨parts, hok, hp⟩ := hparts (segments template) hliteral fun name hn =>
    hvalue name (List.mem_filterMap.2 ⟨_, hn, rfl⟩)
  refine ⟨String.ofList parts.flatten, ?_, ?_⟩
  · simp only [interpolate, hok, bind, Except.bind, pure, Except.pure]
  · rw [String.toList_ofList]
    exact hp

/-- The subjects name the booking, and nothing else. -/
theorem placeholders_subject (locale : EmailDeliveryLocale) (key : NotificationTemplateKey) :
    placeholders (catalogs locale key).subject = ["bookingId"] := by
  cases locale <;> cases key <;> decide

theorem literals_subject (locale : EmailDeliveryLocale) (key : NotificationTemplateKey) :
    ∀ c, .literal c ∈ segments (catalogs locale key).subject → isHeaderControl c = false := by
  have h : (segments (catalogs locale key).subject).all
      (fun | .literal c => !isHeaderControl c | .placeholder _ => true) = true := by
    cases locale <;> cases key <;> decide
  intro c hc
  simpa using List.all_eq_true.1 h _ hc

/-- Both bodies name all variables of their key, in the order in which these are listed. -/
theorem placeholders_bodies (locale : EmailDeliveryLocale) (key : NotificationTemplateKey) :
    ∀ body ∈ [(catalogs locale key).text, (catalogs locale key).html], placeholders body = expectedTemplateVariables key := by
  cases locale <;> cases key
  all_goals
    refine List.forall_mem_cons.2 ⟨?_, List.forall_mem_singleton.2 ?_⟩
    all_goals
      simp only [catalogs, englishCatalog, vietnameseCatalog, placeholders, segments, String.toList_append]
      repeat rw [String.toList_ofList]
      decide +kernel

/-- The bodies name the variables of their key. -/
theorem placeholders_body (locale : EmailDeliveryLocale) (key : NotificationTemplateKey) :
    ∀ body ∈ [(catalogs locale key).text, (catalogs locale key).html], ∀ name ∈ placeholders body,
      name ∈ expectedTemplateVariables key :=
  fun body hbody _ hname => placeholders_bodies locale key body hbody ▸ hname

/-- The variables an event has, if its currency is supported and its room of before is known. -/
theorem variablesFor_ok {event : NotificationEvent} {context : NotificationRenderContext} {locale : EmailDeliveryLocale}
    (hprice : event.booking.price.currency ∈ zeroDecimalCurrencies)
    (hroom : event.change.isSome = true → context.beforeRoomNumber.isSome = true) :
    ∃ values, variablesFor event context locale = .ok values ∧ lookup values "bookingId" = some event.base.bookingId ∧
      ∀ name ∈ expectedTemplateVariables (notificationTemplateRegistry event.type), (lookup values name).isSome = true := by
  obtain ⟨amount, hamount⟩ : ∃ amount, formatAmount event.booking.price locale = .ok amount :=
    ⟨_, Result.bind_eq_ok.2 ⟨(), Result.require_eq_ok.2 (decide_eq_true hprice), rfl⟩⟩
  have hok : ∀ {change}, changeVariables event context = .ok change → variablesFor event context locale = .ok (eventVariables event amount ++ change) :=
    fun hchange => Result.bind_eq_ok.2 ⟨_, hamount, Result.bind_eq_ok.2 ⟨_, hchange, rfl⟩⟩
  cases event with
  | changed base booking before after =>
    obtain ⟨room, hroom⟩ := Option.isSome_iff_exists.1 (hroom rfl)
    refine ⟨_, hok (Result.bind_eq_ok.2 ⟨room, Result.orThrow_eq_ok.2 hroom, rfl⟩), rfl, ?_⟩
    exact List.all_eq_true.1 rfl
  | confirmed | rejected | cancelledByAdmin => exact ⟨_, hok rfl, rfl, List.all_eq_true.1 rfl⟩

/-- A public booking id has no control characters. -/
theorem isHeaderControl_of_publicBookingId {id : String} (h : publicBookingIdPattern id = true) :
    ∀ c ∈ id.toList, isHeaderControl c = false := by
  have hrange : ∀ c : Char, '0' ≤ c → c ≤ 'Z' → isHeaderControl c = false := by
    intro c hlow hhigh
    have hlow : 48 ≤ c.toNat := hlow
    have hhigh : c.toNat ≤ 90 := hhigh
    simp only [isHeaderControl, Bool.or_eq_false_iff, decide_eq_false_iff_not]
    omega
  have hcrockford : ∀ c : Char, isCrockford c = true → '0' ≤ c ∧ c ≤ 'Z' := by
    intro c hc
    simp only [isCrockford, isDigit, Bool.or_eq_true, Bool.and_eq_true, decide_eq_true_eq] at hc
    rcases hc with (((⟨hl, hh⟩ | ⟨hl, hh⟩) | hc) | ⟨hl, hh⟩) | ⟨hl, hh⟩
    · exact ⟨hl, hh.trans (by decide)⟩
    · exact ⟨le_trans (by decide) hl, hh.trans (by decide)⟩
    · simp only [List.mem_cons, List.not_mem_nil, or_false] at hc
      rcases hc with rfl | rfl | rfl | rfl <;> exact ⟨by decide, by decide⟩
    · exact ⟨le_trans (by decide) hl, hh.trans (by decide)⟩
    · exact ⟨le_trans (by decide) hl, hh⟩
  unfold publicBookingIdPattern at h
  split at h
  case h_2 => cases h
  case h_1 c cs hcs =>
    simp only [Bool.and_eq_true, decide_eq_true_eq, List.all_eq_true] at h
    obtain ⟨⟨⟨hlow, hhigh⟩, -⟩, hrest⟩ := h
    rw [hcs]
    refine List.forall_mem_cons.2 ⟨hrange c hlow (hhigh.trans (by decide)), fun d hd => ?_⟩
    exact hrange d (hcrockford d (hrest d hd)).1 (hcrockford d (hrest d hd)).2

/-- A mail can be rendered in a supported currency. -/
theorem render_ok {event : NotificationEvent} {context : NotificationRenderContext} {locale : EmailDeliveryLocale}
    (hid : publicBookingIdPattern event.base.bookingId = true) (hprice : event.booking.price.currency ∈ zeroDecimalCurrencies)
    (hroom : event.change.isSome = true → context.beforeRoomNumber.isSome = true) :
    ∃ content, render catalogs event (notificationTemplateRegistry event.type) locale context = .ok content := by
  obtain ⟨values, hvalues, hbooking, hnames⟩ :
      ∃ values, variablesFor event context locale = .ok values ∧ _ := variablesFor_ok hprice hroom
  have hsafe := isHeaderControl_of_publicBookingId hid
  have hheader : ∀ {value : String}, (∀ c ∈ value.toList, isHeaderControl c = false) → hasUnsafeHeaderCharacter value = false :=
    fun h => List.any_eq_false.2 fun c hc => Bool.not_eq_true _ ▸ h c hc
  obtain ⟨subject, hsubject, hsubjectSafe⟩ : ∃ out, interpolate (catalogs locale (notificationTemplateRegistry event.type)).subject
      values escapeHeaderText = .ok out ∧ ∀ c ∈ out.toList, isHeaderControl c = false := by
    refine interpolate_ok (literals_subject locale _) ?_
    rw [placeholders_subject]
    refine List.forall_mem_singleton.2 ⟨_, _, hbooking, Result.bind_eq_ok.2 ⟨(), ?_, rfl⟩, hsafe⟩
    simp only [hheader hsafe, Bool.not_false, Result.require_eq_ok]
  have hbody : ∀ (escape : String → Except String String), (∀ value, ∃ escaped, escape value = .ok escaped) →
      ∀ body ∈ [(catalogs locale (notificationTemplateRegistry event.type)).text,
        (catalogs locale (notificationTemplateRegistry event.type)).html], ∃ out, interpolate body values escape = .ok out := by
    intro escape hescape body hmem
    obtain ⟨out, hout, -⟩ : ∃ out, interpolate body values escape = .ok out ∧ ∀ c ∈ out.toList, (fun _ => True) c := by
      refine interpolate_ok (fun _ _ => trivial) fun name hname => ?_
      obtain ⟨value, hvalue⟩ := Option.isSome_iff_exists.1 (hnames name (placeholders_body _ _ body hmem name hname))
      obtain ⟨escaped, hescaped⟩ := hescape value
      exact ⟨value, escaped, hvalue, hescaped, fun _ _ => trivial⟩
    exact ⟨out, hout⟩
  obtain ⟨text, htext⟩ := hbody escapePlainText (fun _ => ⟨_, rfl⟩) _ List.mem_cons_self
  obtain ⟨html, hhtml⟩ := hbody escapeHtml (fun _ => ⟨_, rfl⟩) _ (List.mem_cons_of_mem _ List.mem_cons_self)
  refine ⟨⟨subject, text, html⟩, ?_⟩
  simp only [render, decide_true, Result.require, if_true, hvalues, hsubject, hheader hsubjectSafe, Bool.not_false, htext, hhtml,
    bind, Except.bind, pure, Except.pure]

/-- In no other currency. -/
theorem currency_of_render {event : NotificationEvent} {key : NotificationTemplateKey} {context : NotificationRenderContext}
    {locale : EmailDeliveryLocale} {content : RenderedEmailContent} (h : render catalogs event key locale context = .ok content) :
    event.booking.price.currency ∈ zeroDecimalCurrencies := by
  obtain ⟨-, -, h⟩ := Result.bind_eq_ok.1 h
  obtain ⟨values, hvalues, -⟩ := Result.bind_eq_ok.1 h
  obtain ⟨amount, hamount, -⟩ := Result.bind_eq_ok.1 hvalues
  obtain ⟨_, hprice, -⟩ := Result.bind_eq_ok.1 hamount
  exact of_decide_eq_true (Result.require_eq_ok.1 hprice)

end Render

end HotelBackend.Notifications
