set_option autoImplicit false

namespace BroadcastAudit.Text

def pieces (isSeparator : Char → Bool) (text : List Char) : List (List Char) :=
  text.foldr (fun c rest => if isSeparator c then [] :: rest else rest.modifyHead (c :: ·)) [[]]

def isFieldSeparator (c : Char) : Bool :=
  c == ' ' || c == '\t'

def Spaces (text : List Char) : Prop :=
  ∀ c ∈ text, isFieldSeparator c = true

instance (text : List Char) : Decidable (Spaces text) :=
  List.decidableBAll (fun c => isFieldSeparator c = true) text

def fields (line : List Char) : List (List Char) :=
  (pieces isFieldSeparator line).filter (!·.isEmpty)

@[simp]
theorem pieces_nil (isSeparator : Char → Bool) : pieces isSeparator [] = [[]] := rfl

theorem pieces_cons (isSeparator : Char → Bool) (c : Char) (text : List Char) :
    pieces isSeparator (c :: text) =
      if isSeparator c then [] :: pieces isSeparator text
      else (pieces isSeparator text).modifyHead (c :: ·) := rfl

theorem pieces_ne_nil (isSeparator : Char → Bool) (text : List Char) :
    pieces isSeparator text ≠ [] := by
  induction text with
  | nil => simp
  | cons c rest ih =>
    rw [pieces_cons]
    split
    next => simp
    next =>
      cases h : pieces isSeparator rest with
      | nil => exact absurd h ih
      | cons head tail => simp

theorem pieces_of_none (isSeparator : Char → Bool) (text : List Char)
    (h : ∀ c ∈ text, isSeparator c = false) : pieces isSeparator text = [text] := by
  induction text with
  | nil => rfl
  | cons c rest ih =>
    rw [pieces_cons, ih fun d hd => h d (by simp [hd])]
    simp [h c (by simp)]

theorem pieces_append_separator (isSeparator : Char → Bool) (text rest : List Char) (c : Char)
    (h : isSeparator c = true) :
    pieces isSeparator (text ++ c :: rest) =
      pieces isSeparator text ++ pieces isSeparator rest := by
  induction text with
  | nil => simp [pieces_cons, h]
  | cons d text ih =>
    rw [List.cons_append, pieces_cons, pieces_cons, ih]
    split
    next => rfl
    next =>
      cases hp : pieces isSeparator text with
      | nil => exact absurd hp (pieces_ne_nil _ _)
      | cons head tail => rfl

theorem mem_of_mem_pieces (isSeparator : Char → Bool) (text : List Char) :
    ∀ piece ∈ pieces isSeparator text, ∀ c ∈ piece, c ∈ text := by
  induction text with
  | nil => simp
  | cons d rest ih =>
    rw [pieces_cons]
    cases hp : pieces isSeparator rest with
    | nil => exact absurd hp (pieces_ne_nil _ _)
    | cons head tail =>
      rw [hp] at ih
      have inside : ∀ piece ∈ head :: tail, ∀ c ∈ piece, c ∈ d :: rest :=
        fun piece member c mem => List.mem_cons_of_mem d (ih piece member c mem)
      simp only [List.forall_mem_cons] at inside
      by_cases hd : isSeparator d = true
      next => simpa [hd] using inside
      next => simpa [hd] using inside

@[simp]
theorem fields_nil : fields [] = [] := rfl

theorem fields_append_separator (text rest : List Char) (c : Char)
    (h : isFieldSeparator c = true) :
    fields (text ++ c :: rest) = fields text ++ fields rest := by
  simp [fields, pieces_append_separator isFieldSeparator text rest c h]

theorem fields_of_none (text : List Char) (nonempty : text ≠ [])
    (h : ∀ c ∈ text, isFieldSeparator c = false) : fields text = [text] := by
  simp [fields, pieces_of_none isFieldSeparator text h, nonempty]

theorem mem_of_mem_fields {line field : List Char} (h : field ∈ fields line) :
    ∀ c ∈ field, c ∈ line :=
  mem_of_mem_pieces _ _ _ (List.mem_filter.1 h).1

end BroadcastAudit.Text
