import Mathlib.Data.List.Forall2
import Mathlib.Data.List.Infix

/-!
# Patterns of `LIKE`

A pattern is read into tokens: a wildcard for any run, one for any single character, and characters that
stand for themselves; the escape character takes the next one out of its role. Two characters can be equal
to a collation without being the same, so a text is matched up to `equiv`.

A pattern matches by decomposition (`accepts_append`): the tokens of two patterns in a row match the texts
that are a match of the one followed by a match of the other. A quoted text is read as its own characters
(`tokens_quote`), so between two wildcards it matches the texts it occurs in (`accepts_contains`).
-/

namespace HotelBackend.Theory

universe u

variable {α : Type u}

inductive LikeToken (α : Type u) where
  /-- Any run of characters, the empty one among them. -/
  | many
  /-- Any one character. -/
  | one
  | char (a : α)
  deriving DecidableEq, Repr

/-- Which characters have a role in a pattern. -/
structure LikeSyntax (α : Type u) where
  many : α
  one : α
  escape : α
  many_ne_escape : many ≠ escape

namespace LikeSyntax

variable [DecidableEq α] (syn : LikeSyntax α)

/-- A character that is not escaped. -/
def token (a : α) : LikeToken α := if a = syn.many then .many else if a = syn.one then .one else .char a

/-- The escape character at the very end stands for itself. -/
def tokens : List α → List (LikeToken α)
  | [] => []
  | [a] => [syn.token a]
  | a :: b :: rest => if a = syn.escape then .char b :: tokens rest else syn.token a :: tokens (b :: rest)

/-- A character that has a role is escaped. -/
def quoteChar (a : α) : List α := if a = syn.escape ∨ a = syn.many ∨ a = syn.one then [syn.escape, a] else [a]

def quote (text : List α) : List α := text.flatMap syn.quoteChar

end LikeSyntax

/-- Whether a text matches, to its end. -/
def accepts (equiv : α → α → Bool) : List (LikeToken α) → List α → Bool
  | [], text => text.isEmpty
  | .many :: pattern, text => text.tails.any (accepts equiv pattern)
  | .one :: pattern, text => match text with
    | [] => false
    | _ :: text => accepts equiv pattern text
  | .char a :: pattern, text => match text with
    | [] => false
    | b :: text => equiv b a && accepts equiv pattern text

/-- A run of the text that is the term, character by character. -/
def Contains (equiv : α → α → Bool) (term text : List α) : Prop :=
  ∃ before run after, text = before ++ run ++ after ∧ List.Forall₂ (fun b a => equiv b a = true) run term

/-! ### Reading -/

section Reading

variable [DecidableEq α] (syn : LikeSyntax α)

/-- A character without a role, or one with the last word, is read by itself. -/
theorem LikeSyntax.tokens_cons {a : α} (h : a ≠ syn.escape) (rest : List α) : syn.tokens (a :: rest) = syn.token a :: syn.tokens rest := by
  cases rest with
  | nil => rfl
  | cons b rest => rw [tokens, if_neg h]

theorem LikeSyntax.tokens_escape (a : α) (rest : List α) : syn.tokens (syn.escape :: a :: rest) = .char a :: syn.tokens rest := by
  rw [tokens, if_pos rfl]

theorem LikeSyntax.tokens_many (rest : List α) : syn.tokens (syn.many :: rest) = .many :: syn.tokens rest := by
  rw [syn.tokens_cons syn.many_ne_escape, token, if_pos rfl]

/-- **A quoted text is read as its own characters**, whatever follows it. -/
theorem LikeSyntax.tokens_quote (text rest : List α) : syn.tokens (syn.quote text ++ rest) = text.map .char ++ syn.tokens rest := by
  unfold quote
  induction text with
  | nil => rfl
  | cons a text ih =>
    rw [List.flatMap_cons, List.append_assoc, List.map_cons, List.cons_append, ← ih]
    by_cases hrole : a = syn.escape ∨ a = syn.many ∨ a = syn.one
    · rw [quoteChar, if_pos hrole]
      exact syn.tokens_escape a _
    · have hplain : syn.token a = .char a := by
        obtain ⟨-, hmany, hone⟩ := (by simpa only [not_or] using hrole : a ≠ syn.escape ∧ a ≠ syn.many ∧ a ≠ syn.one)
        rw [token, if_neg hmany, if_neg hone]
      rw [quoteChar, if_neg hrole, List.singleton_append, syn.tokens_cons fun hescape => hrole (.inl hescape), hplain]

end Reading

/-! ### Matching -/

section Matching

variable {equiv : α → α → Bool} {pattern : List (LikeToken α)} {text : List α}

@[simp] theorem accepts_nil : accepts equiv [] text = true ↔ text = [] := by
  rw [accepts, List.isEmpty_iff]

/-- A wildcard takes some run, and the pattern goes on after it. -/
theorem accepts_many : accepts equiv (.many :: pattern) text = true ↔ ∃ run rest, text = run ++ rest ∧ accepts equiv pattern rest = true := by
  rw [accepts, List.any_eq_true]
  constructor
  · rintro ⟨rest, hrest, haccepts⟩
    obtain ⟨run, hrun⟩ := (List.mem_tails _ _).1 hrest
    exact ⟨run, rest, hrun.symm, haccepts⟩
  · rintro ⟨run, rest, rfl, haccepts⟩
    exact ⟨rest, (List.mem_tails _ _).2 (List.suffix_append run rest), haccepts⟩

theorem accepts_one : accepts equiv (.one :: pattern) text = true ↔ ∃ b rest, text = b :: rest ∧ accepts equiv pattern rest = true := by
  cases text with
  | nil => simp [accepts]
  | cons b rest => simp [accepts]

theorem accepts_char {a : α} : accepts equiv (.char a :: pattern) text = true ↔
    ∃ b rest, text = b :: rest ∧ equiv b a = true ∧ accepts equiv pattern rest = true := by
  cases text with
  | nil => simp [accepts]
  | cons b rest => simp [accepts]

/-- **Two patterns in a row** match what is a match of the one and then a match of the other. -/
theorem accepts_append {next : List (LikeToken α)} : accepts equiv (pattern ++ next) text = true ↔
    ∃ front rest, text = front ++ rest ∧ accepts equiv pattern front = true ∧ accepts equiv next rest = true := by
  induction pattern generalizing text with
  | nil =>
    rw [List.nil_append]
    constructor
    · intro h
      exact ⟨[], text, rfl, accepts_nil.2 rfl, h⟩
    · rintro ⟨front, rest, rfl, hfront, hrest⟩
      rwa [accepts_nil.1 hfront]
  | cons token pattern ih =>
    rw [List.cons_append]
    cases token with
    | many =>
      simp only [accepts_many, ih]
      constructor
      · rintro ⟨run, _, rfl, front, rest, rfl, hfront, hrest⟩
        exact ⟨run ++ front, rest, (List.append_assoc _ _ _).symm, ⟨run, front, rfl, hfront⟩, hrest⟩
      · rintro ⟨_, rest, rfl, ⟨run, front, rfl, hfront⟩, hrest⟩
        exact ⟨run, front ++ rest, List.append_assoc _ _ _, front, rest, rfl, hfront, hrest⟩
    | one =>
      simp only [accepts_one, ih]
      constructor
      · rintro ⟨b, _, rfl, front, rest, rfl, hfront, hrest⟩
        exact ⟨b :: front, rest, rfl, ⟨b, front, rfl, hfront⟩, hrest⟩
      · rintro ⟨_, rest, rfl, ⟨b, front, rfl, hfront⟩, hrest⟩
        exact ⟨b, front ++ rest, rfl, front, rest, rfl, hfront, hrest⟩
    | char a =>
      simp only [accepts_char, ih]
      constructor
      · rintro ⟨b, _, rfl, heq, front, rest, rfl, hfront, hrest⟩
        exact ⟨b :: front, rest, rfl, ⟨b, front, rfl, heq, hfront⟩, hrest⟩
      · rintro ⟨_, rest, rfl, ⟨b, front, rfl, heq, hfront⟩, hrest⟩
        exact ⟨b, front ++ rest, rfl, heq, front, rest, rfl, hfront, hrest⟩

/-- Characters match a run of as many, one by one. -/
theorem accepts_chars {term : List α} : accepts equiv (term.map .char) text = true ↔
    List.Forall₂ (fun b a => equiv b a = true) text term := by
  induction term generalizing text with
  | nil => rw [List.map_nil, accepts_nil, List.forall₂_nil_right_iff]
  | cons a term ih =>
    rw [List.map_cons, accepts_char, List.forall₂_cons_right_iff]
    simp only [ih]
    constructor
    · rintro ⟨b, rest, rfl, heq, hrest⟩
      exact ⟨b, rest, heq, hrest, rfl⟩
    · rintro ⟨b, rest, heq, hrest, rfl⟩
      exact ⟨b, rest, rfl, heq, hrest⟩

/-- Characters between wildcards. -/
theorem accepts_between {term : List α} :
    accepts equiv (.many :: (term.map .char ++ [.many])) text = true ↔ Contains equiv term text := by
  have hall : ∀ rest : List α, accepts equiv [.many] rest = true := fun rest =>
    accepts_many.2 ⟨rest, [], (List.append_nil rest).symm, accepts_nil.2 rfl⟩
  simp only [accepts_many, accepts_append, accepts_chars, Contains]
  constructor
  · rintro ⟨before, _, rfl, run, after, rfl, hrun, -⟩
    exact ⟨before, run, after, (List.append_assoc _ _ _).symm, hrun⟩
  · rintro ⟨before, run, after, rfl, hrun⟩
    exact ⟨before, run ++ after, List.append_assoc _ _ _, run, after, rfl, hrun, after, [], (List.append_nil after).symm, rfl⟩

/-- **A quoted term between wildcards** matches the texts it occurs in, whatever characters it has. -/
theorem accepts_contains [DecidableEq α] (syn : LikeSyntax α) {term : List α} :
    accepts equiv (syn.tokens (syn.many :: (syn.quote term ++ [syn.many]))) text = true ↔ Contains equiv term text := by
  rw [syn.tokens_many, syn.tokens_quote, syn.tokens_many]
  exact accepts_between

end Matching

end HotelBackend.Theory
