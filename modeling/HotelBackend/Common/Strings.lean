import Mathlib.Algebra.GroupWithZero.Nat
import Mathlib.Data.List.DropRight
import Mathlib.Data.List.Basic
import Mathlib.Algebra.Order.BigOperators.Group.List
import Mathlib.Algebra.Order.Group.Nat

/-!
# JavaScript strings

A Lean string is a sequence of code points; a JavaScript string counts UTF-16 code units.
What the program asks of strings and depends on the difference: their length, `trim`, and
control characters. A string here has no lone surrogate: MySQL and JSON text carry none.
-/

namespace HotelBackend.Common

/-- The code units of a character: two outside the basic plane. -/
def utf16Size (c : Char) : ℕ := if c.toNat < 0x10000 then 1 else 2

/-- `value.length`. -/
def utf16Length (value : String) : ℕ := (value.toList.map utf16Size).sum

/-- The characters `trim` removes. -/
def isJsSpace (c : Char) : Bool :=
  c.toNat ∈ [9, 10, 11, 12, 13, 32, 0xA0, 0x1680, 0x2028, 0x2029, 0x202F, 0x205F, 0x3000, 0xFEFF] ||
    (0x2000 ≤ c.toNat && c.toNat ≤ 0x200A)

/-- `value.trim()`. -/
def jsTrim (value : String) : String :=
  String.ofList ((value.toList.dropWhile isJsSpace).rdropWhile isJsSpace)

/-- What is trimmed has nothing more to trim. -/
theorem jsTrim_idem (value : String) : jsTrim (jsTrim value) = jsTrim value := by
  have hfront : ((value.toList.dropWhile isJsSpace).rdropWhile isJsSpace).dropWhile isJsSpace =
      (value.toList.dropWhile isJsSpace).rdropWhile isJsSpace := by
    rw [List.dropWhile_eq_self_iff]
    intro hpos
    -- the first character is the one that stopped the trim from the left
    have hhead : (value.toList.dropWhile isJsSpace).rdropWhile isJsSpace <+: value.toList.dropWhile isJsSpace := List.rdropWhile_prefix _ _
    rw [hhead.getElem hpos]
    exact List.dropWhile_get_zero_not isJsSpace value.toList (hpos.trans_le hhead.length_le)
  rw [jsTrim, jsTrim, String.toList_ofList, hfront, List.rdropWhile_idempotent]

/-- A code point is at least one code unit. -/
theorem length_le_utf16Length (value : String) : value.toList.length ≤ utf16Length value := by
  rw [utf16Length]
  induction value.toList with
  | nil => exact Nat.zero_le _
  | cons c cs ih =>
    have hc : 1 ≤ utf16Size c := by unfold utf16Size; split <;> omega
    simp only [List.length_cons, List.map_cons, List.sum_cons]
    omega

@[simp] theorem utf16Length_append (a b : String) : utf16Length (a ++ b) = utf16Length a + utf16Length b := by
  rw [utf16Length, String.toList_append, List.map_append, List.sum_append]
  rfl

/-- ASCII texts are as long as they have characters. -/
theorem utf16Length_ofList {chars : List Char} (h : ∀ c ∈ chars, c.toNat < 128) : utf16Length (String.ofList chars) = chars.length := by
  rw [utf16Length, String.toList_ofList]
  induction chars with
  | nil => rfl
  | cons c chars ih =>
    have hc : utf16Size c = 1 := if_pos (by have := h c List.mem_cons_self; omega)
    rw [List.map_cons, List.sum_cons, hc, ih fun d hd => h d (List.mem_cons_of_mem _ hd), List.length_cons, Nat.add_comm]

/-- One separator fewer than there are parts. -/
theorem utf16Length_intercalate (sep : String) (parts : List String) (h : parts ≠ []) :
    utf16Length (sep.intercalate parts) + utf16Length sep = (parts.map fun part => utf16Length part + utf16Length sep).sum := by
  induction parts with
  | nil => exact absurd rfl h
  | cons part parts ih =>
    rw [List.map_cons, List.sum_cons]
    cases parts with
    | nil => rw [String.intercalate_singleton, List.map_nil, List.sum_nil, Nat.add_zero]
    | cons next parts =>
      rw [← ih (List.cons_ne_nil _ _), String.intercalate_cons_cons, utf16Length_append, utf16Length_append]
      omega

/-! ### Marks and numbers -/

/-- What stands before and after the last mark. -/
theorem append_mark_inj {mark : Char} {l l' r r' : List Char} (hr : mark ∉ r) (hr' : mark ∉ r')
    (h : l ++ mark :: r = l' ++ mark :: r') : l = l' ∧ r = r' := by
  have hsplit : ∀ {l r : List Char}, mark ∉ r → (l ++ mark :: r).reverse.takeWhile (· ≠ mark) = r.reverse := by
    intro l r hr
    have hne : ∀ c ∈ r.reverse, decide (c ≠ mark) = true := fun c hc => decide_eq_true fun heq => hr (heq ▸ List.mem_reverse.1 hc)
    rw [List.reverse_append, List.reverse_cons, List.append_assoc, List.takeWhile_append_of_pos hne]
    simp
  have htail : r = r' := List.reverse_injective ((hsplit hr).symm.trans ((congrArg _ (congrArg _ h)).trans (hsplit hr')))
  exact ⟨List.append_cancel_right (htail ▸ h), htail⟩

/-- What stands before and after the first mark. -/
theorem append_first_mark_inj {mark : Char} {l l' r r' : List Char} (hl : mark ∉ l) (hl' : mark ∉ l')
    (h : l ++ mark :: r = l' ++ mark :: r') : l = l' ∧ r = r' := by
  induction l generalizing l' with
  | nil =>
    cases l' with
    | nil => exact ⟨rfl, (List.cons.inj h).2⟩
    | cons c cs => exact absurd ((List.cons.inj h).1 ▸ List.mem_cons_self) hl'
  | cons c cs ih =>
    cases l' with
    | nil => exact absurd ((List.cons.inj h).1 ▸ List.mem_cons_self) hl
    | cons d ds =>
      obtain ⟨rfl, htail⟩ := List.cons.inj h
      obtain ⟨rfl, hr⟩ := ih (fun hc => hl (List.mem_cons_of_mem _ hc)) (fun hd => hl' (List.mem_cons_of_mem _ hd)) htail
      exact ⟨rfl, hr⟩

/-- A number is spelled in digits. -/
theorem not_mem_toString (n : ℕ) {mark : Char} (hmark : mark.isDigit = false) : mark ∉ (toString n).toList := by
  intro h
  rw [Nat.toString_eq_repr, Nat.toList_repr] at h
  have hdigit := Nat.isDigit_of_mem_toDigits (by decide) (by decide) h
  rw [hmark] at hdigit
  cases hdigit

theorem toString_injective {n m : ℕ} (h : toString n = toString m) : n = m := by
  have h := congrArg String.toList h
  rw [Nat.toString_eq_repr, Nat.toString_eq_repr, Nat.toList_repr, Nat.toList_repr] at h
  rw [← Nat.ofDigitChars_ten_toDigits (n := n), h, Nat.ofDigitChars_ten_toDigits]

/-- There is always another string. -/
theorem exists_string_notMem (values : List String) : ∃ value : String, value ∉ values := by
  refine ⟨String.ofList (List.replicate ((values.map fun v => v.toList.length).sum + 1) 'x'), fun hmem => ?_⟩
  have hle := List.single_le_sum (fun _ _ => Nat.zero_le _) _ (List.mem_map_of_mem (f := fun v : String => v.toList.length) hmem)
  simp only [String.toList_ofList, List.length_replicate] at hle
  omega

end HotelBackend.Common
