import Mathlib.Data.List.Nodup
import HotelBackend.Common.JsonText

/-!
# The keys of what was parsed

A value that `JSON.parse` returns names each key of an object once, at every level (`keyed_of_parse`): a
key that stands twice in the text keeps one field. The proof follows the two machines of the parser: no
token carries an object, and what stands open is keyed after every token.
-/

namespace HotelBackend.Common

/-- Objects name each key once, at every level. -/
inductive Json.Keyed : Json → Prop where
  | null : Keyed .null
  | bool (b : Bool) : Keyed (.bool b)
  | num (q : ℚ) : Keyed (.num q)
  | str (s : String) : Keyed (.str s)
  | arr {items : List Json} : (∀ item ∈ items, Keyed item) → Keyed (.arr items)
  | obj {fields : List (String × Json)} : (fields.map (·.1)).Nodup → (∀ f ∈ fields, Keyed f.2) → Keyed (.obj fields)

theorem Json.Keyed.nodup {fields : List (String × Json)} (h : (Json.obj fields).Keyed) : (fields.map (·.1)).Nodup := by
  cases h with
  | obj hkeys _ => exact hkeys

/-! ### Tokens -/

def JsonToken.Keyed : JsonToken → Prop
  | .scalar value => value.Keyed
  | _ => True

theorem keyed_jsonScalar {word : List Char} {value : Json} (h : jsonScalar word = some value) : value.Keyed := by
  unfold jsonScalar at h
  split at h
  · exact Option.some.inj h ▸ .null
  · split at h
    · exact Option.some.inj h ▸ .bool true
    · split at h
      · exact Option.some.inj h ▸ .bool false
      · obtain ⟨q, -, rfl⟩ := Option.map_eq_some_iff.1 h
        exact .num q

theorem keyed_append {tokens : List JsonToken} {token : JsonToken} (h : ∀ t ∈ tokens, t.Keyed) (ht : token.Keyed) :
    ∀ t ∈ tokens ++ [token], t.Keyed := by
  intro t hmem
  rcases List.mem_append.1 hmem with hmem | hmem
  · exact h t hmem
  · exact List.mem_singleton.1 hmem ▸ ht

theorem keyed_lexBetween {tokens : List JsonToken} {c : Char} {next : JsonLexer × List JsonToken} (h : ∀ t ∈ tokens, t.Keyed)
    (hstep : lexBetween tokens c = some next) : ∀ t ∈ next.2, t.Keyed := by
  unfold lexBetween at hstep
  split at hstep
  · exact Option.some.inj hstep ▸ h
  · split at hstep
    · exact Option.some.inj hstep ▸ keyed_append h trivial
    · split at hstep <;> exact Option.some.inj hstep ▸ h

theorem keyed_lexJson {state next : JsonLexer × List JsonToken} {c : Char} (h : ∀ t ∈ state.2, t.Keyed) (hstep : lexJson state c = some next) :
    ∀ t ∈ next.2, t.Keyed := by
  obtain ⟨lexer, tokens⟩ := state
  cases lexer with
  | between => exact keyed_lexBetween h hstep
  | word chars =>
    rw [lexJson] at hstep
    split at hstep
    · obtain ⟨value, hvalue, hstep⟩ := Option.bind_eq_some_iff.1 hstep
      have htoken : JsonToken.Keyed (.scalar value) := keyed_jsonScalar hvalue
      exact keyed_lexBetween (keyed_append h htoken) hstep
    · exact Option.some.inj hstep ▸ h
  | text units =>
    rw [lexJson] at hstep
    split at hstep
    · exact Option.some.inj hstep ▸ keyed_append h trivial
    · split at hstep
      · exact Option.some.inj hstep ▸ h
      · split at hstep
        · cases hstep
        · exact Option.some.inj hstep ▸ h
  | backslash units =>
    rw [lexJson] at hstep
    split at hstep
    · exact Option.some.inj hstep ▸ h
    · obtain ⟨unit, -, rfl⟩ := Option.map_eq_some_iff.1 hstep
      exact h
  | unicode units digits value =>
    rw [lexJson] at hstep
    obtain ⟨digit, -, rfl⟩ := Option.map_eq_some_iff.1 hstep
    split <;> exact h

/-- A fold that may fail keeps what each of its steps keeps. -/
theorem foldlM_keeps {α σ : Type} {step : σ → α → Option σ} {P : σ → Prop} {Q : α → Prop}
    (hstep : ∀ s a s', P s → Q a → step s a = some s' → P s') (inputs : List α) (hinputs : ∀ a ∈ inputs, Q a) {s s' : σ} (h : P s)
    (hfold : inputs.foldlM step s = some s') : P s' := by
  induction inputs generalizing s with
  | nil => exact Option.some.inj hfold ▸ h
  | cons a rest ih =>
    rw [List.foldlM_cons] at hfold
    obtain ⟨s₁, hs₁, hfold⟩ := Option.bind_eq_some_iff.1 hfold
    exact ih (fun b hb => hinputs b (List.mem_cons_of_mem _ hb)) (hstep s a s₁ h (hinputs a List.mem_cons_self) hs₁) hfold

theorem keyed_jsonTokens {text : List Char} {tokens : List JsonToken} (h : jsonTokens text = some tokens) : ∀ t ∈ tokens, t.Keyed := by
  obtain ⟨⟨lexer, found⟩, hfold, h⟩ := Option.bind_eq_some_iff.1 h
  have hfound := foldlM_keeps (P := fun s : JsonLexer × List JsonToken => ∀ t ∈ s.2, t.Keyed) (Q := fun _ => True)
    (fun _ _ _ hs _ => keyed_lexJson hs) _ (fun _ _ => trivial) (fun _ hmem => absurd hmem List.not_mem_nil) hfold
  cases lexer with
  | between => exact Option.some.inj h ▸ hfound
  | word | text | backslash | unicode => cases h

/-! ### Values -/

/-- What stands open, as a value. -/
def JsonFrame.value : JsonFrame → Json
  | .arr items => .arr items
  | .obj fields _ => .obj fields

structure Keyed (state : List JsonFrame × JsonExpect) : Prop where
  frames : ∀ frame ∈ state.1, frame.value.Keyed
  done : ∀ value, state.2 = .done value → value.Keyed

theorem keyed_setField {fields : List (String × Json)} {value : Json} (key : String) (h : (Json.obj fields).Keyed) (hvalue : value.Keyed) :
    (Json.obj (setField fields key value)).Keyed := by
  cases h with
  | obj hkeys hfields =>
    unfold setField
    split
    · next hmem =>
      have hsame : (fields.map fun f => if f.1 = key then (key, value) else f).map (·.1) = fields.map (·.1) := by
        rw [List.map_map]
        refine List.map_congr_left fun f _ => ?_
        dsimp only [Function.comp]
        split
        · next hf => exact hf.symm
        · rfl
      refine .obj (hsame ▸ hkeys) fun g hg => ?_
      obtain ⟨f, hf, rfl⟩ := List.mem_map.1 hg
      split
      · exact hvalue
      · exact hfields f hf
    · next hnew =>
      rw [Bool.not_eq_true, List.any_eq_false] at hnew
      refine .obj ?_ fun g hg => ?_
      · rw [List.map_append, List.map_singleton]
        refine List.nodup_append.2 ⟨hkeys, List.nodup_singleton key, fun k hk k' hk' heq => ?_⟩
        obtain ⟨f, hf, rfl⟩ := List.mem_map.1 hk
        exact hnew f hf (decide_eq_true (heq.trans (List.mem_singleton.1 hk')))
      · rcases List.mem_append.1 hg with hg | hg
        · exact hfields g hg
        · exact List.mem_singleton.1 hg ▸ hvalue

theorem keyed_completeJson {frames : List JsonFrame} {value : Json} (h : ∀ frame ∈ frames, frame.value.Keyed) (hvalue : value.Keyed) :
    Keyed (completeJson frames value) := by
  cases frames with
  | nil => exact ⟨h, fun v hv => JsonExpect.done.inj hv ▸ hvalue⟩
  | cons frame frames =>
    obtain ⟨hframe, hframes⟩ := List.forall_mem_cons.1 h
    cases frame with
    | arr items =>
      refine ⟨List.forall_mem_cons.2 ⟨.arr fun item hitem => ?_, hframes⟩, fun v hv => by cases hv⟩
      rcases List.mem_append.1 hitem with hitem | hitem
      · cases hframe with
        | arr hitems => exact hitems item hitem
      · exact List.mem_singleton.1 hitem ▸ hvalue
    | obj fields key => exact ⟨List.forall_mem_cons.2 ⟨keyed_setField key hframe hvalue, hframes⟩, fun v hv => by cases hv⟩

theorem keyed_beginJson {frames : List JsonFrame} {token : JsonToken} {next : List JsonFrame × JsonExpect}
    (h : ∀ frame ∈ frames, frame.value.Keyed) (htoken : token.Keyed) (hstep : beginJson frames token = some next) : Keyed next := by
  unfold beginJson at hstep
  split at hstep
  · obtain rfl := Option.some.inj hstep
    exact ⟨List.forall_mem_cons.2 ⟨.arr fun _ hmem => absurd hmem List.not_mem_nil, h⟩, fun v hv => by cases hv⟩
  · obtain rfl := Option.some.inj hstep
    exact ⟨List.forall_mem_cons.2 ⟨.obj List.nodup_nil fun _ hmem => absurd hmem List.not_mem_nil, h⟩, fun v hv => by cases hv⟩
  · cases hstep
  · exact Option.some.inj hstep ▸ keyed_completeJson h (.str _)
  · exact Option.some.inj hstep ▸ keyed_completeJson h htoken

theorem keyed_readJson {state next : List JsonFrame × JsonExpect} {token : JsonToken} (h : Keyed state) (htoken : token.Keyed)
    (hstep : readJson state token = some next) : Keyed next := by
  have hframes := h.frames
  unfold readJson at hstep
  split at hstep
  · exact keyed_beginJson hframes htoken hstep
  · exact Option.some.inj hstep ▸ keyed_completeJson (List.forall_mem_cons.1 hframes).2 (List.forall_mem_cons.1 hframes).1
  · exact keyed_beginJson hframes htoken hstep
  · exact Option.some.inj hstep ▸ keyed_completeJson (List.forall_mem_cons.1 hframes).2 (List.forall_mem_cons.1 hframes).1
  · exact Option.some.inj hstep ▸ ⟨hframes, fun v hv => by cases hv⟩
  · exact Option.some.inj hstep ▸ keyed_completeJson (List.forall_mem_cons.1 hframes).2 (List.forall_mem_cons.1 hframes).1
  · exact Option.some.inj hstep ▸ ⟨List.forall_mem_cons.2 (List.forall_mem_cons.1 hframes), fun v hv => by cases hv⟩
  · exact Option.some.inj hstep ▸ ⟨List.forall_mem_cons.2 (List.forall_mem_cons.1 hframes), fun v hv => by cases hv⟩
  · exact Option.some.inj hstep ▸ ⟨hframes, fun v hv => by cases hv⟩
  · exact Option.some.inj hstep ▸ keyed_completeJson (List.forall_mem_cons.1 hframes).2 (List.forall_mem_cons.1 hframes).1
  · exact Option.some.inj hstep ▸ ⟨List.forall_mem_cons.2 (List.forall_mem_cons.1 hframes), fun v hv => by cases hv⟩
  · cases hstep

/-- **What is parsed names each key once**, at every level. -/
theorem keyed_of_parse {text : String} {value : Json} (h : parseJson text = some value) : value.Keyed := by
  obtain ⟨tokens, htokens, h⟩ := Option.bind_eq_some_iff.1 h
  obtain ⟨⟨frames, expect⟩, hfold, h⟩ := Option.bind_eq_some_iff.1 h
  have hstart : Keyed ([], .value) := ⟨fun _ hmem => absurd hmem List.not_mem_nil, fun v hv => by cases hv⟩
  have hkeyed := foldlM_keeps (P := Keyed) (Q := JsonToken.Keyed) (fun _ _ _ hs ht => keyed_readJson hs ht) tokens (keyed_jsonTokens htokens) hstart hfold
  split at h
  · next found heq => exact Option.some.inj h ▸ hkeyed.done _ (congrArg Prod.snd heq)
  · cases h

end HotelBackend.Common
