import DependencyQuery.Pattern.Render
import Mathlib.Data.List.Basic
import Mathlib.Data.List.TakeDrop
import Mathlib.Data.List.TakeWhile

namespace DependencyQuery.Pattern

open Text (decimalValue isDecimalDigit)

/-!
# Reading tokens back

A token that has been read from somewhere is read again wherever it stands before a character that
ends it.

* `token?` — a run of characters of which the first may start one;
* `identifier?_append`, `literal?_append`, `labelName?_append` — the tokens of patterns;
* `literal?_of_isLiteral` — what is written without quotes is one token;
* `number?_renderNumber` — a number is read back from its digits.
-/

variable {s after rest : List Char}

/-! ### Runs of characters -/

/-- What holds of the first character of a text. -/
theorem forall_head?_cons {p : Char → Prop} {c : Char} (h : p c) (s : List Char) :
    ∀ d ∈ (c :: s).head?, p d := by
  intro d hd
  cases hd
  exact h

/-- What goes on as long as a property holds is cut off where it does not. -/
theorem span_takeWhile_append {p : Char → Bool} (h : ∀ c ∈ rest.head?, p c = false) :
    (s.takeWhile p ++ rest).span p = (s.takeWhile p, rest) := by
  have hs : ∀ c ∈ s.takeWhile p, p c := fun c hc => List.mem_takeWhile_imp hc
  rw [List.span_eq_takeWhile_dropWhile, List.takeWhile_append_of_pos hs, List.dropWhile_append_of_pos hs]
  cases rest with
  | nil => rw [List.takeWhile_nil, List.append_nil, List.dropWhile_nil]
  | cons c rest =>
    have hc : ¬p c := by simp [h c rfl]
    rw [List.takeWhile_cons_of_neg hc, List.dropWhile_cons_of_neg hc, List.append_nil]

/-! ### Identifiers and values -/

/-- As many characters as continue a token, of which the first has to be one that starts it. -/
def token? (starts continues : Char → Bool) : List Char → Option (List Char × List Char)
  | c :: rest => if starts c then some ((c :: rest).span continues) else none
  | [] => none

/-- A name is a token. -/
theorem identifier?_eq_token? : identifier? = token? startsName continuesName := by
  funext s
  cases s <;> rfl

/-- A value without quotes is a token. -/
theorem literal?_eq_token? :
    literal? = token? (fun c => continuesLiteral c && c ≠ '/') continuesLiteral := by
  funext s
  cases s <;> rfl

section Token

variable {starts continues : Char → Bool} {token : List Char}

/-- A token and what comes after it are the text. -/
theorem token?_append_eq (h : token? starts continues s = some (token, after)) : token ++ after = s := by
  cases s with
  | nil => cases h
  | cons c s =>
    rw [token?] at h
    split at h
    · rw [List.span_eq_takeWhile_dropWhile] at h
      cases h
      exact List.takeWhile_append_dropWhile
    · cases h

/-- A token is read where nothing comes that it would go on with. -/
theorem token?_append (hstarts : ∀ c, starts c = true → continues c = true)
    (h : token? starts continues s = some (token, after))
    (hrest : ∀ c ∈ rest.head?, continues c = false) :
    token? starts continues (token ++ rest) = some (token, rest) := by
  cases s with
  | nil => cases h
  | cons c s =>
    rw [token?] at h
    split at h
    · next hc =>
      rw [List.span_eq_takeWhile_dropWhile] at h
      cases h
      have hspan := span_takeWhile_append (p := continues) (s := c :: s) hrest
      -- the first character is one of the token, so that reading starts where it did
      rw [List.takeWhile_cons_of_pos (hstarts c hc)] at hspan ⊢
      rw [List.cons_append, token?, if_pos hc]
      exact congrArg some hspan
    · cases h

end Token

/-- A name goes on with whatever it may begin with. -/
theorem continuesName_of_startsName {c : Char} (h : startsName c = true) : continuesName c = true := by
  simp only [startsName, continuesName, Char.isAlphanum, Bool.or_eq_true] at h ⊢
  exact h.imp_left Or.inl

/-- An identifier is read back where no character follows that continues it. -/
theorem identifier?_append {name : List Char} (h : identifier? s = some (name, after))
    (hrest : ∀ c ∈ rest.head?, continuesName c = false) :
    identifier? (name ++ rest) = some (name, rest) := by
  rw [identifier?_eq_token?] at h ⊢
  exact token?_append (fun _ => continuesName_of_startsName) h hrest

/-- A value without quotes is read back where no character follows that continues it. -/
theorem literal?_append {text : List Char} (h : literal? s = some (text, after))
    (hrest : ∀ c ∈ rest.head?, continuesLiteral c = false) :
    literal? (text ++ rest) = some (text, rest) := by
  rw [literal?_eq_token?] at h ⊢
  exact token?_append (fun _ hc => (Bool.and_eq_true_iff.1 hc).1) h hrest

/-- A text that can stand without quotes is read as a whole. -/
theorem literal?_of_isLiteral {text : List Char} (h : isLiteral text = true) :
    literal? text = some (text, []) := by
  unfold isLiteral at h
  split at h
  · next token ht =>
    have : token ++ [] = text := token?_append_eq (literal?_eq_token? ▸ ht)
    rw [List.append_nil] at this
    rwa [this] at ht
  · cases h

/-! ### Labels -/

/-- The subtypes of a label are the front of the text. -/
theorem labelSuffix_append_eq {suffix : List Char} (h : labelSuffix s = (suffix, after)) :
    suffix ++ after = s := by
  fun_induction labelSuffix s generalizing suffix with
  | case1 => cases h; rfl
  | case2 c s hc name after' hname ih =>
    cases h
    rw [List.cons_append, List.cons_append, ih hname]
  | case3 c s hc => cases h; rfl
  | case4 c s hcolon hc name after' hname ih =>
    cases h
    rw [List.cons_append, ih hname]
  | case5 c s hcolon hc => cases h; rfl

/-- Nothing joins a label where neither a name goes on nor a colon comes. -/
theorem labelSuffix_eq_nil (h : ∀ c ∈ s.head?, continuesName c = false ∧ c ≠ ':') :
    labelSuffix s = ([], s) := by
  cases s with
  | nil => rfl
  | cons c s =>
    obtain ⟨hname, hcolon⟩ := h c rfl
    rw [labelSuffix]
    · rw [if_neg (by simp [hname])]
    · intro _ _ hc _
      exact hcolon hc

/-- What joins a label is read where nothing comes that it would go on with. -/
theorem labelSuffix_append {suffix : List Char} (h : labelSuffix s = (suffix, after))
    (hrest : ∀ c ∈ rest.head?, continuesName c = false ∧ c ≠ ':') :
    labelSuffix (suffix ++ rest) = (suffix, rest) := by
  fun_induction labelSuffix s generalizing suffix with
  -- at the end of what was read, the rest begins with nothing that goes on
  | case1 =>
    cases h
    exact labelSuffix_eq_nil hrest
  -- a colon goes on only with a character of a name, which is written after it again
  | case2 c s hc name after' hname ih =>
    cases h
    rw [List.cons_append, List.cons_append, labelSuffix, if_pos hc, ih hname]
  | case3 c s hc =>
    cases h
    exact labelSuffix_eq_nil hrest
  | case4 c s hcolon hc name after' hname ih =>
    cases h
    -- a character of a name is no colon, so the first equation does not apply
    have : c ≠ ':' := by
      rintro rfl
      exact absurd hc (by decide)
    rw [List.cons_append, labelSuffix, if_pos hc, ih hname]
    intro _ _ hc' _
    exact this hc'
  | case5 c s hcolon hc =>
    cases h
    exact labelSuffix_eq_nil hrest

/-- Whether the character may stand in the first part of a label. -/
def continuesLabel (c : Char) : Bool := continuesName c || c = '-'

/-- A label is a run of its characters, and what joins it. -/
theorem labelName?_eq (c : Char) (s : List Char) (h : startsName c = true) :
    labelName? (c :: s) =
      some ((c :: s).takeWhile continuesLabel ++ (labelSuffix ((c :: s).dropWhile continuesLabel)).1,
        (labelSuffix ((c :: s).dropWhile continuesLabel)).2) := by
  rw [labelName?, if_pos h, List.span_eq_takeWhile_dropWhile]
  rfl

/-- A label is read back where no character follows that continues it. -/
theorem labelName?_append {label : List Char} (h : labelName? s = some (label, after))
    (hrest : ∀ c ∈ rest.head?, continuesName c = false ∧ c ≠ '-' ∧ c ≠ ':') :
    labelName? (label ++ rest) = some (label, rest) := by
  cases s with
  | nil => cases h
  | cons c s =>
    by_cases hc : startsName c = true
    · rw [labelName?_eq c s hc] at h
      cases hsuffix : labelSuffix ((c :: s).dropWhile continuesLabel) with
      | mk suffix after' =>
        rw [hsuffix] at h
        cases h
        -- what follows the first part does not continue it, be it the subtypes or what comes after
        have hends : ∀ d ∈ (suffix ++ rest).head?, continuesLabel d = false := by
          intro d hd
          cases suffix with
          | nil =>
            obtain ⟨hname, hhyphen, -⟩ := hrest d hd
            simp [continuesLabel, hname, hhyphen]
          | cons e suffix =>
            cases hd
            have := List.head?_dropWhile_not continuesLabel (c :: s)
            rwa [← labelSuffix_append_eq hsuffix] at this
        have hspan := span_takeWhile_append (p := continuesLabel) (s := c :: s) hends
        rw [List.span_eq_takeWhile_dropWhile, Prod.mk.injEq] at hspan
        obtain ⟨htake, hdrop⟩ := hspan
        have hrest' : ∀ d ∈ rest.head?, continuesName d = false ∧ d ≠ ':' :=
          fun d hd => ⟨(hrest d hd).1, (hrest d hd).2.2⟩
        rw [List.append_assoc]
        have hcons : (c :: s).takeWhile continuesLabel = c :: s.takeWhile continuesLabel :=
          List.takeWhile_cons_of_pos (by simp [continuesLabel, continuesName_of_startsName hc])
        rw [hcons] at htake hdrop ⊢
        rw [List.cons_append, labelName?_eq _ _ hc]
        rw [List.cons_append] at htake hdrop
        rw [htake, hdrop, labelSuffix_append hsuffix hrest']
    · rw [labelName?, if_neg hc] at h
      cases h

/-! ### Numbers -/

/-- A number has the value of its digits. -/
theorem decimalValue_renderNumber (n : Nat) : decimalValue (renderNumber n) = n :=
  Text.decimalValue_toDigits n

/-- A number has digits. -/
theorem renderNumber_ne_nil (n : Nat) : renderNumber n ≠ [] := Nat.toDigits_ne_nil

/-- A number is read back from its digits where no digit follows. -/
theorem number?_renderNumber (n : Nat) (h : ∀ c ∈ rest.head?, isDecimalDigit c = false) :
    number? (renderNumber n ++ rest) = some (n, rest) := by
  have hdigits : (renderNumber n).takeWhile isDecimalDigit = renderNumber n := by
    rw [List.takeWhile_eq_self_iff]
    intro c hc
    exact Text.isDecimalDigit_of_mem_toDigits hc
  have hspan := span_takeWhile_append (p := isDecimalDigit) (s := renderNumber n) h
  rw [hdigits] at hspan
  rw [number?, hspan]
  split
  · next heq => exact (renderNumber_ne_nil n (congrArg Prod.fst heq)).elim
  · next heq =>
    cases heq
    rw [decimalValue_renderNumber]

/-- Where no digit comes, there is no number. -/
theorem number?_eq_none (h : ∀ c ∈ rest.head?, isDecimalDigit c = false) : number? rest = none := by
  have hspan : rest.span isDecimalDigit = ([], rest) := span_takeWhile_append (s := []) h
  rw [number?, hspan]

end DependencyQuery.Pattern
