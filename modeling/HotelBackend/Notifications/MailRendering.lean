import Mathlib.Data.List.Sort
import HotelBackend.Notifications.EmailTemplate
import HotelBackend.Theory.Replacement

/-!
# Mail rendering

What `EmailTemplateService.render` makes of values it knows nothing about. The catalogs may
be any two files that `validateNotificationTemplateCatalogs` accepts. The pieces of a
template are its text (`spell_segments`), a value becomes one region of the mail, and
nothing in the value is read as markup, as a placeholder or as a header
(`render_injectionFree`).
-/

namespace HotelBackend.Notifications

open HotelBackend.Common
open HotelBackend.Theory
open HotelBackend.Bookings

/-! ### Escaping -/

/-- The entity of a character, if it has one. -/
def escapeChar (c : Char) : List Char :=
  if c = '&' then ['&', 'a', 'm', 'p', ';']
  else if c = '<' then ['&', 'l', 't', ';']
  else if c = '>' then ['&', 'g', 't', ';']
  else if c = '"' then ['&', 'q', 'u', 'o', 't', ';']
  else if c = '\'' then ['&', '#', '3', '9', ';']
  else [c]

/-- What a text with the five entities stands for. -/
def decodeEntities : List Char → List Char
  | '&' :: 'a' :: 'm' :: 'p' :: ';' :: cs => '&' :: decodeEntities cs
  | '&' :: 'l' :: 't' :: ';' :: cs => '<' :: decodeEntities cs
  | '&' :: 'g' :: 't' :: ';' :: cs => '>' :: decodeEntities cs
  | '&' :: 'q' :: 'u' :: 'o' :: 't' :: ';' :: cs => '"' :: decodeEntities cs
  | '&' :: '#' :: '3' :: '9' :: ';' :: cs => '\'' :: decodeEntities cs
  | c :: cs => c :: decodeEntities cs
  | [] => []

/-- The five replacements, one after the other, are one: the ampersand is replaced first. -/
theorem escapeHtml_eq (value : String) : escapeHtml value = .ok (String.ofList (value.toList.flatMap escapeChar)) := by
  unfold escapeHtml
  refine congrArg Except.ok (String.toList_inj.1 (Eq.trans ?_ String.toList_ofList.symm))
  rw [toList_replace_char _ (c := '\'') rfl, toList_replace_char _ (c := '"') rfl, toList_replace_char _ (c := '>') rfl,
    toList_replace_char _ (c := '<') rfl, toList_replace_char _ (c := '&') rfl]
  simp only [List.flatMap_assoc]
  refine List.flatMap_congr fun c _ => ?_
  unfold escapeChar
  by_cases hamp : c = '&'
  · subst hamp
    rfl
  by_cases hlt : c = '<'
  · subst hlt
    rfl
  by_cases hgt : c = '>'
  · subst hgt
    rfl
  by_cases hquot : c = '"'
  · subst hquot
    rfl
  by_cases hapos : c = '\''
  · subst hapos
    rfl
  simp [hamp, hlt, hgt, hquot, hapos]

theorem decodeEntities_cons {c : Char} (h : c ≠ '&') (cs : List Char) : decodeEntities (c :: cs) = c :: decodeEntities cs := by
  conv_lhs => unfold decodeEntities
  split
  case h_6 heq =>
    obtain ⟨rfl, rfl⟩ := List.cons_eq_cons.1 heq
    rfl
  case h_7 heq => cases heq
  all_goals
    rename_i heq
    exact absurd (List.cons_eq_cons.1 heq).1 h

/-- The entities decode to the value. -/
theorem decodeEntities_escape (cs : List Char) : decodeEntities (cs.flatMap escapeChar) = cs := by
  induction cs with
  | nil => rfl
  | cons c cs ih =>
    rw [List.flatMap_cons, escapeChar]
    by_cases hamp : c = '&'
    · subst hamp
      simp [decodeEntities, ih]
    by_cases hlt : c = '<'
    · subst hlt
      simp [decodeEntities, ih]
    by_cases hgt : c = '>'
    · subst hgt
      simp [decodeEntities, ih]
    by_cases hquot : c = '"'
    · subst hquot
      simp [decodeEntities, ih]
    by_cases hapos : c = '\''
    · subst hapos
      simp [decodeEntities, ih]
    simp only [hamp, hlt, hgt, hquot, hapos, if_false]
    rw [List.singleton_append, decodeEntities_cons hamp, ih]

/-- A text without these characters, checked one by one. -/
theorem notMem_of_all {marks cs : List Char} (h : (cs.all fun c => !marks.contains c) = true) : ∀ c ∈ cs, c ∉ marks := by
  intro c hc
  simpa using List.all_eq_true.1 h c hc

/-- Nothing that opens or closes a tag or an attribute is left. -/
theorem escape_clean (cs : List Char) : ∀ c ∈ cs.flatMap escapeChar, c ∉ ['<', '>', '"', '\''] := by
  intro c hc
  obtain ⟨d, -, hc⟩ := List.mem_flatMap.1 hc
  unfold escapeChar at hc
  split at hc
  case isTrue => exact notMem_of_all (by rfl) c hc
  split at hc
  case isTrue => exact notMem_of_all (by rfl) c hc
  split at hc
  case isTrue => exact notMem_of_all (by rfl) c hc
  split at hc
  case isTrue => exact notMem_of_all (by rfl) c hc
  split at hc
  case isTrue => exact notMem_of_all (by rfl) c hc
  obtain rfl := List.mem_singleton.1 hc
  simp_all

/-! ### Line ends -/

/-- Line ends of any kind, as line feeds. -/
def lineFeeds : List Char → List Char
  | '\r' :: '\n' :: cs => '\n' :: lineFeeds cs
  | '\r' :: cs => '\n' :: lineFeeds cs
  | c :: cs => c :: lineFeeds cs
  | [] => []

theorem replace_lineEnds (cs : List Char) :
    (replaceAll ['\r', '\n'] ['\n'] cs).flatMap (fun d => if d = '\r' then ['\n'] else [d]) = lineFeeds cs := by
  fun_induction lineFeeds cs with
  | case1 cs ih =>
    rw [← ih]
    exact congrArg _ (replaceAll_of_matched (by decide) cs)
  | case2 cs hnot ih =>
    have hunmatched : ¬ ['\r', '\n'] <+: '\r' :: cs := by
      rintro ⟨rest, hrest⟩
      exact hnot rest (List.cons_eq_cons.1 hrest).2.symm
    rw [replaceAll_of_unmatched hunmatched, List.flatMap_cons, ih]
    rfl
  | case3 c cs _ hne ih =>
    have hc : c ≠ '\r' := hne
    have hunmatched : ¬ ['\r', '\n'] <+: c :: cs := fun h => hc (List.cons_prefix_cons.1 h).1.symm
    rw [replaceAll_of_unmatched hunmatched, List.flatMap_cons, ih, if_neg hc]
    rfl
  | case4 => simp

theorem escapePlainText_eq (value : String) : escapePlainText value = .ok (String.ofList (lineFeeds value.toList)) := by
  unfold escapePlainText
  refine congrArg Except.ok (String.toList_inj.1 (Eq.trans ?_ String.toList_ofList.symm))
  rw [toList_replace_char _ (c := '\r') rfl, toList_replace (by decide), ← replace_lineEnds]
  rfl

/-! ### Pieces -/

/-- The piece as the template has it. -/
def Segment.spell : Segment → List Char
  | literal c => [c]
  | placeholder name => ['\x7b', '\x7b'] ++ name.toList ++ ['\x7d', '\x7d']

/-- The piece with a region for its placeholder. -/
def Segment.fill (region : String → List Char) : Segment → List Char
  | literal c => [c]
  | placeholder name => region name

/-- The text of a template, with a region for each placeholder. -/
def interleave (template : String) (region : String → List Char) : List Char := (segments template).flatMap (Segment.fill region)

/-- The pieces of a text. -/
def pieces (cs : List Char) : List Segment := segmentsOf cs.length cs

/-- What the pattern takes for a name. -/
def IsName (name : String) : Prop := ∃ c rest, name = String.ofList (c :: rest) ∧ isLetter c = true ∧ ∀ d ∈ rest, isAlphanumeric d = true

theorem matchPlaceholder_eq_some {cs after : List Char} {name : String} :
    matchPlaceholder cs = some (name, after) ↔ IsName name ∧ cs = (Segment.placeholder name).spell ++ after := by
  constructor
  · intro h
    unfold matchPlaceholder at h
    split at h
    case h_2 => cases h
    case h_1 c rest =>
      split at h
      case isFalse => cases h
      case isTrue hc =>
        split at h
        case h_2 => cases h
        case h_1 after' hdrop =>
          obtain ⟨rfl, rfl⟩ := Prod.mk.inj (Option.some.inj h)
          have hrest : rest = rest.takeWhile isAlphanumeric ++ '\x7d' :: '\x7d' :: after' := by
            rw [← hdrop, List.takeWhile_append_dropWhile]
          refine ⟨⟨c, _, rfl, hc, fun d hd => List.mem_takeWhile_imp hd⟩, ?_⟩
          simp only [Segment.spell, String.toList_ofList, List.cons_append, List.nil_append, List.append_assoc]
          exact congrArg (fun l => '\x7b' :: '\x7b' :: c :: l) hrest
  · rintro ⟨⟨c, rest, rfl, hc, hrest⟩, rfl⟩
    simp only [Segment.spell, String.toList_ofList, List.cons_append, List.nil_append, List.append_assoc, matchPlaceholder, hc, if_true]
    rw [List.dropWhile_append_of_pos hrest, List.takeWhile_append_of_pos hrest, List.dropWhile_cons_of_neg (by decide),
      List.takeWhile_cons_of_neg (by decide), List.append_nil]
    rfl

/-- A name has no line feed. -/
theorem IsName.lineFeed {name : String} (h : IsName name) : '\n' ∉ (Segment.placeholder name).spell := by
  obtain ⟨c, rest, rfl, hc, hrest⟩ := h
  simp only [Segment.spell, String.toList_ofList, List.mem_append, not_or]
  refine ⟨⟨by decide, List.not_mem_cons_of_ne_of_not_mem ?_ fun hmem => ?_⟩, by decide⟩
  · rintro rfl
    cases hc
  · cases hrest _ hmem

theorem length_of_matchPlaceholder {c : Char} {cs after : List Char} {name : String}
    (h : matchPlaceholder (c :: cs) = some (name, after)) : after.length ≤ cs.length := by
  have hlen := congrArg List.length (matchPlaceholder_eq_some.1 h).2
  simp only [Segment.spell, List.length_append, List.length_cons, List.length_nil] at hlen
  omega

theorem segmentsOf_eq {fuel : ℕ} {cs : List Char} (h : cs.length ≤ fuel) : segmentsOf fuel cs = pieces cs := by
  induction fuel using Nat.strong_induction_on generalizing cs with
  | _ fuel ih =>
    cases cs with
    | nil => cases fuel <;> rfl
    | cons c cs =>
      obtain ⟨fuel, rfl⟩ : ∃ n, fuel = n + 1 := ⟨fuel - 1, by simp only [List.length_cons] at h; omega⟩
      simp only [List.length_cons] at h
      unfold pieces
      rw [List.length_cons, segmentsOf, segmentsOf]
      cases hmatch : matchPlaceholder (c :: cs) with
      | none => exact congrArg _ (ih fuel (by omega) (by omega))
      | some found =>
        have hle := length_of_matchPlaceholder hmatch
        have hfuel := ih fuel (by omega) (hle.trans (by omega))
        have hcs := ih cs.length (by omega) hle
        exact congrArg _ (hfuel.trans hcs.symm)

theorem pieces_cons (c : Char) (cs : List Char) : pieces (c :: cs) =
    match matchPlaceholder (c :: cs) with
    | some (name, after) => .placeholder name :: pieces after
    | none => .literal c :: pieces cs := by
  rw [pieces, List.length_cons, segmentsOf]
  cases hmatch : matchPlaceholder (c :: cs) with
  | none => rfl
  | some found => exact congrArg _ (segmentsOf_eq (length_of_matchPlaceholder hmatch))

theorem spell_pieces (cs : List Char) : (pieces cs).flatMap Segment.spell = cs := by
  induction h : cs.length using Nat.strong_induction_on generalizing cs with
  | _ n ih =>
    subst h
    cases cs with
    | nil => rfl
    | cons c cs =>
      rw [pieces_cons]
      cases hmatch : matchPlaceholder (c :: cs) with
      | none => exact congrArg (c :: ·) (ih _ (by simp) cs rfl)
      | some found =>
        have hle := length_of_matchPlaceholder hmatch
        exact (congrArg _ (ih _ (by simp only [List.length_cons]; omega) found.2 rfl)).trans (matchPlaceholder_eq_some.1 hmatch).2.symm

/-- The pieces of a template are its text. -/
theorem spell_segments (template : String) : (segments template).flatMap Segment.spell = template.toList := spell_pieces template.toList

/-- No placeholder reaches over a line feed. -/
theorem matchPlaceholder_append (c : Char) (cs ds : List Char) : matchPlaceholder (c :: cs ++ '\n' :: ds) =
    (matchPlaceholder (c :: cs)).map fun found => (found.1, found.2 ++ '\n' :: ds) := by
  refine Option.ext fun ⟨name, after'⟩ => ?_
  rw [matchPlaceholder_eq_some, Option.map_eq_some_iff]
  constructor
  · rintro ⟨hname, heq⟩
    rcases List.append_eq_append_iff.1 heq with ⟨mid, hspell, hmid⟩ | ⟨mid, hcs, hafter⟩
    · -- a placeholder longer than the text would have its line feed
      cases mid with
      | nil =>
        rw [List.append_nil] at hspell
        refine ⟨(name, []), matchPlaceholder_eq_some.2 ⟨hname, by rw [hspell, List.append_nil]⟩, ?_⟩
        exact congrArg (name, ·) hmid
      | cons d mid =>
        obtain ⟨rfl, -⟩ := List.cons_eq_cons.1 hmid
        refine absurd ?_ hname.lineFeed
        rw [hspell]
        simp
    · exact ⟨(name, mid), matchPlaceholder_eq_some.2 ⟨hname, hcs⟩, congrArg (name, ·) hafter.symm⟩
  · rintro ⟨⟨name', after⟩, hmatch, heq⟩
    obtain ⟨rfl, rfl⟩ := Prod.mk.inj heq
    obtain ⟨hname, hcs⟩ := matchPlaceholder_eq_some.1 hmatch
    exact ⟨hname, by rw [hcs, List.append_assoc]⟩

theorem pieces_append (cs ds : List Char) : pieces (cs ++ '\n' :: ds) = pieces cs ++ .literal '\n' :: pieces ds := by
  induction h : cs.length using Nat.strong_induction_on generalizing cs with
  | _ n ih =>
    subst h
    cases cs with
    | nil => rw [List.nil_append, pieces_cons]; rfl
    | cons c cs =>
      rw [List.cons_append, pieces_cons, pieces_cons, ← List.cons_append, matchPlaceholder_append]
      cases hmatch : matchPlaceholder (c :: cs) with
      | none => exact congrArg _ (ih _ (by simp) cs rfl)
      | some found =>
        have hle := length_of_matchPlaceholder hmatch
        exact congrArg _ (ih _ (by simp only [List.length_cons]; omega) found.2 rfl)

/-! ### Catalogs -/

/-- A catalog as its file has it: definitions under any keys. -/
structure CatalogFile where
  entries : List (String × NotificationTemplateDefinition)
  nodup : (entries.map Prod.fst).Nodup

/-- `catalog[key]` -/
def CatalogFile.get? (file : CatalogFile) (key : String) : Option NotificationTemplateDefinition :=
  (file.entries.find? (·.1 = key)).map (·.2)

def EmailDeliveryLocale.text : EmailDeliveryLocale → String
  | english => "en"
  | vietnamese => "vi"

/-- `Object.values(EmailDeliveryLocale)` -/
def locales : List EmailDeliveryLocale := [.english, .vietnamese]

def notificationTemplateKeys : List NotificationTemplateKey := [.confirmed, .rejected, .changed, .cancelledByAdmin]

/-- `[…values].sort()` -/
def sortStrings (values : List String) : List String := values.insertionSort (· ≤ ·)

/-- The variables of a template, each once, in order. -/
def extractVariables (template : String) : List String := sortStrings (placeholders template).eraseDups

def sameStrings (left right : List String) : Bool := left.length = right.length && (left.zip right).all fun pair => pair.1 = pair.2

/-- The part of a definition, and its name. -/
def templateParts : List (String × (NotificationTemplateDefinition → String)) := [("subject", (·.subject)), ("text", (·.text)), ("html", (·.html))]

/-- `Object.values(definition)` -/
def NotificationTemplateDefinition.values (definition : NotificationTemplateDefinition) : List String :=
  [definition.subject, definition.text, definition.html]

/-- The keys of a file are the keys of the templates. -/
def validateKeys (files : EmailDeliveryLocale → CatalogFile) (locale : EmailDeliveryLocale) : Except String Unit :=
  Result.require (sameStrings (sortStrings ((files locale).entries.map Prod.fst)) (sortStrings (notificationTemplateKeys.map (·.text))))
    ("Notification template keys differ for locale " ++ locale.text ++ ".")

/-- The parts of a template have the variables they are to have, in both files. -/
def validateTemplate (files : EmailDeliveryLocale → CatalogFile) (templateKey : NotificationTemplateKey) : Except String Unit := do
  let english ← Result.orThrow ((files .english).get? templateKey.text) "Cannot read properties of undefined"
  let vietnamese ← Result.orThrow ((files .vietnamese).get? templateKey.text) "Cannot read properties of undefined"
  forM templateParts fun part =>
    Result.require (sameStrings (extractVariables (part.2 english)) (extractVariables (part.2 vietnamese)))
      ("Notification template variables differ for " ++ templateKey.text ++ "." ++ part.1 ++ ".")
  Result.require (sameStrings (extractVariables ("\n".intercalate english.values)) (sortStrings (expectedTemplateVariables templateKey)))
    ("Notification template variables are invalid for " ++ templateKey.text ++ ".")

def validateNotificationTemplateCatalogs (files : EmailDeliveryLocale → CatalogFile) : Except String Unit := do
  forM locales (validateKeys files)
  forM notificationTemplateKeys (validateTemplate files)

/-- A mail from a template, once it is found. -/
def renderTemplate (template : NotificationTemplateDefinition) (event : NotificationEvent) (locale : EmailDeliveryLocale)
    (context : NotificationRenderContext) : Except String RenderedEmailContent := do
  let values ← variablesFor event context locale
  let subject ← interpolate template.subject values escapeHeaderText
  Result.require (!hasUnsafeHeaderCharacter subject) "Rendered notification subject is not header safe."
  let text ← interpolate template.text values escapePlainText
  let html ← interpolate template.html values escapeHtml
  return ⟨subject, text, html⟩

/-- `render`, from files. -/
def renderFrom (files : EmailDeliveryLocale → CatalogFile) (event : NotificationEvent) (templateKey : NotificationTemplateKey)
    (locale : EmailDeliveryLocale) (context : NotificationRenderContext) : Except String RenderedEmailContent := do
  Result.require (notificationTemplateRegistry event.type = templateKey) "Notification event and template key do not match."
  let template ← Result.orThrow ((files locale).get? templateKey.text) "Notification template is unavailable."
  renderTemplate template event locale context

/-- The files of the repository. -/
def filesOf (catalogs : EmailDeliveryLocale → NotificationTemplateCatalog) (locale : EmailDeliveryLocale) : CatalogFile where
  entries := notificationTemplateKeys.map fun key => (key.text, catalogs locale key)
  nodup := by
    rw [List.map_map]
    exact (by decide : (notificationTemplateKeys.map (·.text)).Nodup)

/-- Files with these keys are read as the catalogs are. -/
theorem render_eq_renderFrom (catalogs : EmailDeliveryLocale → NotificationTemplateCatalog) (event : NotificationEvent)
    (templateKey : NotificationTemplateKey) (locale : EmailDeliveryLocale) (context : NotificationRenderContext) :
    render catalogs event templateKey locale context = renderFrom (filesOf catalogs) event templateKey locale context := by
  have hget : (filesOf catalogs locale).get? templateKey.text = some (catalogs locale templateKey) := by cases templateKey <;> rfl
  unfold render renderFrom renderTemplate
  rw [hget]
  rfl

/-! ### What the validation accepts -/

theorem sameStrings_iff {left right : List String} : sameStrings left right = true ↔ left = right := by
  unfold sameStrings
  induction left generalizing right with
  | nil => cases right <;> simp
  | cons a left ih =>
    cases right with
    | nil => simp
    | cons b right =>
      have htail := @ih right
      simp only [Bool.and_eq_true, decide_eq_true_eq] at htail
      simp only [List.length_cons, List.zip_cons_cons, List.all_cons, Bool.and_eq_true, decide_eq_true_eq, Nat.add_right_cancel_iff,
        List.cons.injEq]
      rw [← htail]
      exact and_left_comm

@[simp] theorem mem_sortStrings {values : List String} {value : String} : value ∈ sortStrings values ↔ value ∈ values :=
  List.mem_insertionSort _

@[simp] theorem mem_extractVariables {template name : String} : name ∈ extractVariables template ↔ name ∈ placeholders template := by
  rw [extractVariables, mem_sortStrings, List.mem_eraseDups]

/-- The variables of texts on lines of their own are the variables of each. -/
theorem placeholders_append (a b : String) : placeholders (a ++ "\n" ++ b) = placeholders a ++ placeholders b := by
  have htext : (a ++ "\n" ++ b).toList = a.toList ++ '\n' :: b.toList := by simp
  rw [placeholders, segments, htext]
  exact (congrArg _ (pieces_append a.toList b.toList)).trans List.filterMap_append

theorem intercalate_values (definition : NotificationTemplateDefinition) :
    "\n".intercalate definition.values = definition.subject ++ "\n" ++ definition.text ++ "\n" ++ definition.html := by
  simp [NotificationTemplateDefinition.values, String.intercalate_cons_cons, String.append_assoc]

theorem mem_placeholders_values {definition : NotificationTemplateDefinition} {part name : String} (hpart : part ∈ definition.values)
    (hname : name ∈ placeholders part) : name ∈ placeholders ("\n".intercalate definition.values) := by
  rw [intercalate_values, placeholders_append, placeholders_append, List.mem_append, List.mem_append]
  simp only [NotificationTemplateDefinition.values, List.mem_cons, List.not_mem_nil, or_false] at hpart
  rcases hpart with rfl | rfl | rfl
  · exact .inl (.inl hname)
  · exact .inl (.inr hname)
  · exact .inr hname

/-- In accepted files, a template is there for each key, and uses no variable but those of its key. -/
theorem template_of_accepted {files : EmailDeliveryLocale → CatalogFile} (h : validateNotificationTemplateCatalogs files = .ok ())
    (templateKey : NotificationTemplateKey) (locale : EmailDeliveryLocale) :
    ∃ template, (files locale).get? templateKey.text = some template ∧
      ∀ part ∈ template.values, ∀ name ∈ placeholders part, name ∈ expectedTemplateVariables templateKey := by
  obtain ⟨_, -, htemplates⟩ := Result.bind_eq_ok.1 h
  have hkey : templateKey ∈ notificationTemplateKeys := by cases templateKey <;> decide
  have htemplate := Result.forM_eq_ok.1 htemplates templateKey hkey
  obtain ⟨english, henglish, htemplate⟩ := Result.bind_eq_ok.1 htemplate
  obtain ⟨vietnamese, hvietnamese, htemplate⟩ := Result.bind_eq_ok.1 htemplate
  obtain ⟨_, hparts, hall⟩ := Result.bind_eq_ok.1 htemplate
  have hexpected := sameStrings_iff.1 (Result.require_eq_ok.1 hall)
  have hin : ∀ part ∈ english.values, ∀ name ∈ placeholders part, name ∈ expectedTemplateVariables templateKey := by
    intro part hpart name hname
    have hmem := mem_extractVariables.2 (mem_placeholders_values hpart hname)
    rwa [hexpected, mem_sortStrings] at hmem
  cases locale with
  | english => exact ⟨english, Result.orThrow_eq_ok.1 henglish, hin⟩
  | vietnamese =>
    refine ⟨vietnamese, Result.orThrow_eq_ok.1 hvietnamese, fun part hpart name hname => ?_⟩
    obtain ⟨entry, hentry, rfl⟩ : ∃ entry ∈ templateParts, entry.2 vietnamese = part := by
      simpa [NotificationTemplateDefinition.values, templateParts, eq_comm] using hpart
    have hsame := sameStrings_iff.1 (Result.require_eq_ok.1 (Result.forM_eq_ok.1 hparts entry hentry))
    have henglishPart : entry.2 english ∈ english.values := by
      simp only [templateParts, List.mem_cons, List.not_mem_nil, or_false] at hentry
      rcases hentry with rfl | rfl | rfl <;> simp [NotificationTemplateDefinition.values]
    refine hin _ henglishPart name (mem_extractVariables.1 ?_)
    rw [hsame]
    exact mem_extractVariables.2 hname

/-! ### Interpolation -/

section Interpolation

variable {template : String} {values : List (String × String)} {escape : String → Except String String}

theorem interpolate_eq {region : String → String}
    (h : ∀ name ∈ placeholders template, ∃ value, lookup values name = some value ∧ escape value = .ok (region name)) :
    interpolate template values escape = .ok (String.ofList (interleave template fun name => (region name).toList)) := by
  have hpiece : ∀ piece ∈ segments template, renderSegment values escape piece = .ok (piece.fill fun name => (region name).toList) := by
    intro piece hmem
    cases piece with
    | literal c => rfl
    | placeholder name =>
      obtain ⟨value, hlookup, hescape⟩ := h name (List.mem_filterMap.2 ⟨_, hmem, rfl⟩)
      exact Result.bind_eq_ok.2 ⟨value, Result.orThrow_eq_ok.2 hlookup, Result.bind_eq_ok.2 ⟨_, hescape, rfl⟩⟩
  refine Result.bind_eq_ok.2 ⟨_, Result.mapM_ok hpiece, ?_⟩
  rw [interleave, List.flatMap_def]
  rfl

theorem interpolate_error {message : String} (h : interpolate template values escape = .error message) :
    ∃ name ∈ placeholders template, (lookup values name = none) ∨ ∃ value, lookup values name = some value ∧ escape value = .error message := by
  rcases Result.bind_eq_error.1 h with hparts | ⟨parts, -, hnil⟩
  · obtain ⟨piece, hmem, hpiece⟩ := Result.mapM_error hparts
    cases piece with
    | literal c => cases hpiece
    | placeholder name =>
      refine ⟨name, List.mem_filterMap.2 ⟨_, hmem, rfl⟩, ?_⟩
      rcases Result.bind_eq_error.1 hpiece with hlookup | ⟨value, hlookup, hescape⟩
      · exact .inl (Result.orThrow_eq_error.1 hlookup).1
      · rcases Result.bind_eq_error.1 hescape with hescape | ⟨escaped, -, hnil⟩
        · exact .inr ⟨value, Result.orThrow_eq_ok.1 hlookup, hescape⟩
        · cases hnil
  · cases hnil

theorem interpolate_ok_value {out : String} (h : interpolate template values escape = .ok out) :
    ∀ name ∈ placeholders template, ∃ value escaped, lookup values name = some value ∧ escape value = .ok escaped := by
  intro name hname
  obtain ⟨piece, hmem, hpiece⟩ := List.mem_filterMap.1 hname
  obtain ⟨parts, hparts, -⟩ := Result.bind_eq_ok.1 h
  cases piece with
  | literal c => cases hpiece
  | placeholder name' =>
    obtain rfl := Option.some.inj hpiece
    obtain ⟨part, hpart⟩ := Result.forall_of_mapM_ok hparts _ hmem
    obtain ⟨value, hvalue, hpart⟩ := Result.bind_eq_ok.1 hpart
    obtain ⟨escaped, hescape, -⟩ := Result.bind_eq_ok.1 hpart
    exact ⟨value, escaped, Result.orThrow_eq_ok.1 hvalue, hescape⟩

end Interpolation

/-! ### Mails -/

/-- The value of a variable. -/
def valueOf (values : List (String × String)) (name : String) : List Char := ((lookup values name).getD "").toList

/-- A part of a page that stands for a value, and is text only. -/
structure Region (value region : List Char) : Prop where
  clean : ∀ c ∈ region, c ∉ ['<', '>', '"', '\'']
  decoded : decodeEntities region = value

/-- Each part of the mail is the text of its template, with the values in the places of their placeholders. -/
structure InjectionFree (template : NotificationTemplateDefinition) (values : List (String × String)) (content : RenderedEmailContent) : Prop where
  available : ∀ part ∈ template.values, ∀ name ∈ placeholders part, (lookup values name).isSome = true
  spelled : ∀ part ∈ template.values, (segments part).flatMap Segment.spell = part.toList
  html : ∃ region : String → List Char, content.html.toList = interleave template.html region ∧
    ∀ name ∈ placeholders template.html, Region (valueOf values name) (region name)
  text : content.text.toList = interleave template.text fun name => lineFeeds (valueOf values name)
  subject : content.subject.toList = interleave template.subject (valueOf values)
  header : ∀ c ∈ content.subject.toList, isHeaderControl c = false

/-- Why there is no mail. -/
inductive Refusal (template : NotificationTemplateDefinition) (event : NotificationEvent) (locale : EmailDeliveryLocale)
    (context : NotificationRenderContext) : String → Prop
  | currency (h : event.booking.price.currency ∉ zeroDecimalCurrencies) :
      Refusal template event locale context "Notification price currency is unsupported."
  | change (h : event.change.isSome = true) (hroom : context.beforeRoomNumber = none) :
      Refusal template event locale context "Notification change context is incomplete."
  | value {values : List (String × String)} {name value : String} (hvalues : variablesFor event context locale = .ok values)
      (hname : name ∈ placeholders template.subject) (hvalue : lookup values name = some value)
      (hheader : hasUnsafeHeaderCharacter value = true) : Refusal template event locale context "Notification header variable is not safe."
  | subject {c : Char} (h : .literal c ∈ segments template.subject) (hcontrol : isHeaderControl c = true) :
      Refusal template event locale context "Rendered notification subject is not header safe."

theorem Refusal.ne_unavailable {template : NotificationTemplateDefinition} {event : NotificationEvent} {locale : EmailDeliveryLocale}
    {context : NotificationRenderContext} {message : String} (h : Refusal template event locale context message) :
    message ≠ "Notification template variable is unavailable." := by
  cases h <;> decide

theorem variablesFor_cases (event : NotificationEvent) (context : NotificationRenderContext) (locale : EmailDeliveryLocale) :
    (event.booking.price.currency ∉ zeroDecimalCurrencies ∧
        variablesFor event context locale = .error "Notification price currency is unsupported.") ∨
      (event.change.isSome = true ∧ context.beforeRoomNumber = none ∧
        variablesFor event context locale = .error "Notification change context is incomplete.") ∨
      ∃ values, variablesFor event context locale = .ok values ∧
        ∀ name ∈ expectedTemplateVariables (notificationTemplateRegistry event.type), (lookup values name).isSome = true := by
  by_cases hprice : event.booking.price.currency ∈ zeroDecimalCurrencies
  · by_cases hroom : event.change.isSome = true → context.beforeRoomNumber.isSome = true
    · obtain ⟨values, hvalues, -, hnames⟩ : ∃ values, variablesFor event context locale = .ok values ∧ _ := variablesFor_ok hprice hroom
      exact .inr (.inr ⟨values, hvalues, hnames⟩)
    · obtain ⟨hchange, hnone⟩ := Classical.not_imp.1 hroom
      have hnone : context.beforeRoomNumber = none := by simpa using hnone
      refine .inr (.inl ⟨hchange, hnone, ?_⟩)
      obtain ⟨change, hsome⟩ := Option.isSome_iff_exists.1 hchange
      unfold variablesFor changeVariables formatAmount
      simp only [hprice, hsome, hnone]
      rfl
  · refine .inl ⟨hprice, ?_⟩
    unfold variablesFor formatAmount
    simp only [hprice]
    rfl

theorem control_of_escapeHeaderText {value message : String} (h : escapeHeaderText value = .error message) :
    hasUnsafeHeaderCharacter value = true ∧ message = "Notification header variable is not safe." := by
  rcases Result.bind_eq_error.1 h with h | ⟨_, -, hnil⟩
  · obtain ⟨hsafe, rfl⟩ := Result.require_eq_error.1 h
    exact ⟨by simpa using hsafe, rfl⟩
  · cases hnil

theorem escapeHeaderText_of_safe {value : String} (h : hasUnsafeHeaderCharacter value = false) : escapeHeaderText value = .ok value := by
  unfold escapeHeaderText
  rw [h]
  rfl

section

variable {template : NotificationTemplateDefinition} {event : NotificationEvent} {locale : EmailDeliveryLocale}
  {context : NotificationRenderContext} {values : List (String × String)}

/-- A part whose values are escaped without failing. -/
theorem interpolate_total {part : String} {escape : String → Except String String} {escaped : List Char → List Char}
    (hescape : ∀ value : String, escape value = .ok (String.ofList (escaped value.toList)))
    (hnames : ∀ name ∈ placeholders part, (lookup values name).isSome = true) :
    interpolate part values escape = .ok (String.ofList (interleave part fun name => escaped (valueOf values name))) := by
  have h : ∀ name ∈ placeholders part, ∃ value, lookup values name = some value ∧
      escape value = .ok (String.ofList (escaped (valueOf values name))) := by
    intro name hname
    obtain ⟨value, hvalue⟩ := Option.isSome_iff_exists.1 (hnames name hname)
    refine ⟨value, hvalue, ?_⟩
    rw [hescape, valueOf, hvalue, Option.getD_some]
  rw [interpolate_eq h]
  simp only [String.toList_ofList]

/-- The subject comes out with its values as they are, or a value is not fit for a header. -/
theorem interpolate_subject (hvalues : variablesFor event context locale = .ok values)
    (hnames : ∀ name ∈ placeholders template.subject, (lookup values name).isSome = true) :
    (∃ message, interpolate template.subject values escapeHeaderText = .error message ∧ Refusal template event locale context message) ∨
      interpolate template.subject values escapeHeaderText = .ok (String.ofList (interleave template.subject (valueOf values))) := by
  cases hout : interpolate template.subject values escapeHeaderText with
  | error message =>
    obtain ⟨name, hname, hnone | ⟨value, hvalue, hescape⟩⟩ := interpolate_error hout
    · have hsome := hnames name hname
      rw [hnone] at hsome
      cases hsome
    · obtain ⟨hheader, rfl⟩ := control_of_escapeHeaderText hescape
      exact .inl ⟨_, rfl, .value hvalues hname hvalue hheader⟩
  | ok subject =>
    right
    have h : ∀ name ∈ placeholders template.subject, ∃ value, lookup values name = some value ∧
        escapeHeaderText value = .ok (String.ofList (valueOf values name)) := by
      intro name hname
      obtain ⟨value, escaped, hvalue, hescape⟩ := interpolate_ok_value hout name hname
      obtain rfl : value = escaped := by
        obtain ⟨_, -, hvalue⟩ := Result.bind_eq_ok.1 hescape
        exact Except.ok.inj hvalue
      refine ⟨value, hvalue, ?_⟩
      rw [hescape, valueOf, hvalue, Option.getD_some, String.ofList_toList]
    rw [← hout, interpolate_eq h]
    simp only [String.toList_ofList]

/-- A control character in the subject is the template's own: a value that has one has thrown. -/
theorem literal_of_control {subject : String} (hok : interpolate template.subject values escapeHeaderText = .ok subject)
    (hsubject : subject.toList = interleave template.subject (valueOf values)) (hheader : hasUnsafeHeaderCharacter subject = true) :
    ∃ c, .literal c ∈ segments template.subject ∧ isHeaderControl c = true := by
  obtain ⟨c, hc, hcontrol⟩ := List.any_eq_true.1 hheader
  rw [hsubject] at hc
  obtain ⟨piece, hmem, hpiece⟩ := List.mem_flatMap.1 hc
  cases piece with
  | literal d =>
    obtain rfl := List.mem_singleton.1 hpiece
    exact ⟨c, hmem, hcontrol⟩
  | placeholder name =>
    obtain ⟨value, escaped, hvalue, hescape⟩ := interpolate_ok_value hok name (List.mem_filterMap.2 ⟨_, hmem, rfl⟩)
    have hsafe : hasUnsafeHeaderCharacter value = false := by
      obtain ⟨_, hsafe, -⟩ := Result.bind_eq_ok.1 hescape
      simpa using hsafe
    have hin : c ∈ value.toList := by
      simpa [Segment.fill, valueOf, hvalue] using hpiece
    rw [hasUnsafeHeaderCharacter, List.any_eq_false] at hsafe
    exact absurd hcontrol (hsafe c hin)

/-- The mail of a template, with its values in place. -/
def mailOf (template : NotificationTemplateDefinition) (values : List (String × String)) : RenderedEmailContent where
  subject := String.ofList (interleave template.subject (valueOf values))
  text := String.ofList (interleave template.text fun name => lineFeeds (valueOf values name))
  html := String.ofList (interleave template.html fun name => (valueOf values name).flatMap escapeChar)

theorem injectionFree_mailOf (havailable : ∀ part ∈ template.values, ∀ name ∈ placeholders part, (lookup values name).isSome = true)
    (hheader : hasUnsafeHeaderCharacter (mailOf template values).subject = false) : InjectionFree template values (mailOf template values) where
  available := havailable
  spelled part _ := spell_segments part
  html := ⟨_, String.toList_ofList, fun name _ => ⟨escape_clean (valueOf values name), decodeEntities_escape (valueOf values name)⟩⟩
  text := String.toList_ofList
  subject := String.toList_ofList
  header c hc := by simpa using List.any_eq_false.1 hheader c hc

/-- A mail from a template whose variables are those of its key. -/
theorem renderTemplate_injectionFree
    (hnames : ∀ part ∈ template.values, ∀ name ∈ placeholders part, name ∈ expectedTemplateVariables (notificationTemplateRegistry event.type)) :
    (∃ message, renderTemplate template event locale context = .error message ∧ Refusal template event locale context message) ∨
      ∃ values content, variablesFor event context locale = .ok values ∧
        renderTemplate template event locale context = .ok content ∧ InjectionFree template values content := by
  rcases variablesFor_cases event context locale with ⟨hprice, herror⟩ | ⟨hchange, hroom, herror⟩ | ⟨values, hvalues, hexpected⟩
  · exact .inl ⟨_, by rw [renderTemplate, herror]; rfl, .currency hprice⟩
  · exact .inl ⟨_, by rw [renderTemplate, herror]; rfl, .change hchange hroom⟩
  have havailable : ∀ part ∈ template.values, ∀ name ∈ placeholders part, (lookup values name).isSome = true :=
    fun part hpart name hname => hexpected name (hnames part hpart name hname)
  have hpartSubject : template.subject ∈ template.values := List.mem_cons_self
  have hpartText : template.text ∈ template.values := List.mem_cons_of_mem _ List.mem_cons_self
  have hpartHtml : template.html ∈ template.values := List.mem_cons_of_mem _ (List.mem_cons_of_mem _ List.mem_cons_self)
  rcases interpolate_subject hvalues (havailable _ hpartSubject) with ⟨message, herror, hrefusal⟩ | hsubject
  · refine .inl ⟨message, ?_, hrefusal⟩
    rw [renderTemplate, hvalues]
    exact Result.bind_eq_error.2 (.inr ⟨values, rfl, Result.bind_eq_error.2 (.inl herror)⟩)
  cases hheader : hasUnsafeHeaderCharacter (String.ofList (interleave template.subject (valueOf values))) with
  | true =>
    obtain ⟨c, hc, hcontrol⟩ := literal_of_control hsubject String.toList_ofList hheader
    refine .inl ⟨_, ?_, .subject hc hcontrol⟩
    simp only [renderTemplate, hvalues, hsubject, hheader, bind, Except.bind]
    rfl
  | false =>
    have htext := interpolate_total escapePlainText_eq (havailable _ hpartText)
    have hhtml := interpolate_total escapeHtml_eq (havailable _ hpartHtml)
    refine .inr ⟨values, mailOf template values, hvalues, ?_, injectionFree_mailOf havailable hheader⟩
    simp only [renderTemplate, hvalues, hsubject, hheader, htext, hhtml, bind, Except.bind]
    rfl

end

/-- There is no mail, for one of these reasons, or it is free of injection; it is never for want of a variable. -/
def RendersSafely (files : EmailDeliveryLocale → CatalogFile) (event : NotificationEvent) (context : NotificationRenderContext)
    (locale : EmailDeliveryLocale) : Prop :=
  ∃ template, (files locale).get? (notificationTemplateRegistry event.type).text = some template ∧
    ((∃ message, renderFrom files event (notificationTemplateRegistry event.type) locale context = .error message ∧
        Refusal template event locale context message) ∨
      ∃ values content, variablesFor event context locale = .ok values ∧
        renderFrom files event (notificationTemplateRegistry event.type) locale context = .ok content ∧
        InjectionFree template values content) ∧
    renderFrom files event (notificationTemplateRegistry event.type) locale context ≠ .error "Notification template variable is unavailable."

/-- **Mails are free of injection**, from any files the validation accepts. -/
theorem render_injectionFree (files : EmailDeliveryLocale → CatalogFile) (h : validateNotificationTemplateCatalogs files = .ok ())
    (event : NotificationEvent) (context : NotificationRenderContext) (locale : EmailDeliveryLocale) :
    RendersSafely files event context locale := by
  obtain ⟨template, htemplate, hnames⟩ := template_of_accepted h (notificationTemplateRegistry event.type) locale
  have hrender : renderFrom files event (notificationTemplateRegistry event.type) locale context =
      renderTemplate template event locale context := by
    unfold renderFrom
    rw [htemplate]
    simp only [decide_true]
    rfl
  have hmail := @renderTemplate_injectionFree template event locale context hnames
  refine ⟨template, htemplate, hrender ▸ hmail, ?_⟩
  rw [hrender]
  rcases hmail with ⟨message, herror, hrefusal⟩ | ⟨values, content, -, hok, -⟩
  · rw [herror]
    intro hmessage
    obtain rfl := Except.error.inj hmessage
    exact hrefusal.ne_unavailable rfl
  · rw [hok]
    exact nofun

/-! ### The catalogs of the repository -/

theorem placeholders_part (locale : EmailDeliveryLocale) (key : NotificationTemplateKey) :
    placeholders (catalogs locale key).text = expectedTemplateVariables key ∧
      placeholders (catalogs locale key).html = expectedTemplateVariables key :=
  ⟨placeholders_bodies locale key _ List.mem_cons_self, placeholders_bodies locale key _ (List.mem_cons_of_mem _ List.mem_cons_self)⟩

/-- The catalogs of the repository are accepted. -/
theorem validate_catalogs : validateNotificationTemplateCatalogs (filesOf catalogs) = .ok () := by
  have hget (locale : EmailDeliveryLocale) (key : NotificationTemplateKey) : (filesOf catalogs locale).get? key.text = some (catalogs locale key) := by
    cases key <;> rfl
  refine Result.bind_eq_ok.2 ⟨(), Result.forM_eq_ok.2 fun locale _ => ?_, Result.forM_eq_ok.2 fun key _ => ?_⟩
  · have hkeys : (filesOf catalogs locale).entries.map Prod.fst = notificationTemplateKeys.map (·.text) := rfl
    exact Result.require_eq_ok.2 (sameStrings_iff.2 (by rw [hkeys]))
  · refine Result.bind_eq_ok.2 ⟨_, Result.orThrow_eq_ok.2 (hget .english key), Result.bind_eq_ok.2 ⟨_,
      Result.orThrow_eq_ok.2 (hget .vietnamese key), Result.bind_eq_ok.2 ⟨(), Result.forM_eq_ok.2 fun part hpart => ?_, ?_⟩⟩⟩
    · refine Result.require_eq_ok.2 (sameStrings_iff.2 ?_)
      simp only [templateParts, List.mem_cons, List.not_mem_nil, or_false] at hpart
      rcases hpart with rfl | rfl | rfl
      · simp only [extractVariables, placeholders_subject]
      · simp only [extractVariables, (placeholders_part _ key).1]
      · simp only [extractVariables, (placeholders_part _ key).2]
    · have hjoin : placeholders ("\n".intercalate (catalogs .english key).values) =
          ["bookingId"] ++ expectedTemplateVariables key ++ expectedTemplateVariables key := by
        rw [intercalate_values, placeholders_append, placeholders_append, placeholders_subject, (placeholders_part _ key).1,
          (placeholders_part _ key).2]
      refine Result.require_eq_ok.2 (sameStrings_iff.2 ?_)
      rw [extractVariables, hjoin]
      cases key <;> exact congrArg sortStrings (by decide)

/-- A refusal whose reason is written as markup, with a placeholder in it. -/
def markupEvent : NotificationEvent := .rejected ⟨"01J0000000000000000000000A", "7", 2⟩
  ⟨⟨⟨"3", "101"⟩, "2030-01-01", "2030-01-03", .rejected, ⟨1500000, "VND"⟩⟩, "<a href='x'>\x7b\x7broomNumber\x7d\x7d & more</a>"⟩

theorem render_injectionFree_markup :
    validateNotificationTemplateCatalogs (filesOf catalogs) = .ok () ∧ RendersSafely (filesOf catalogs) markupEvent ⟨none⟩ .english :=
  ⟨validate_catalogs, render_injectionFree (filesOf catalogs) validate_catalogs markupEvent ⟨none⟩ .english⟩

end HotelBackend.Notifications
