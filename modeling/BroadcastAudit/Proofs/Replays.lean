import Mathlib.Data.List.Basic
import Mathlib.Data.List.Forall2
import Mathlib.Data.List.Induction
import Mathlib.Data.List.Nodup

set_option autoImplicit false

namespace BroadcastAudit.Replays

variable {α β σ ε : Type}

def withPastFrom (past : List α) : List α → List (List α × α)
  | [] => []
  | x :: rest => (past, x) :: withPastFrom (past ++ [x]) rest

def withPast (xs : List α) : List (List α × α) :=
  withPastFrom [] xs

theorem withPastFrom_append (past xs ys : List α) :
    withPastFrom past (xs ++ ys) = withPastFrom past xs ++ withPastFrom (past ++ xs) ys := by
  induction xs generalizing past with
  | nil => simp [withPastFrom]
  | cons x xs ih => simp [withPastFrom, ih]

@[simp]
theorem withPast_nil : withPast ([] : List α) = [] := rfl

@[simp]
theorem withPast_append_singleton (xs : List α) (x : α) :
    withPast (xs ++ [x]) = withPast xs ++ [(xs, x)] := by
  simp [withPast, withPastFrom_append, withPastFrom]

theorem mem_withPast (past : List α) (x : α) (xs : List α) :
    (past, x) ∈ withPast xs ↔ past ++ [x] <+: xs := by
  induction xs using List.reverseRecOn with
  | nil => simp
  | append_singleton xs y ih =>
    rw [withPast_append_singleton, List.mem_append, ih, List.mem_singleton, Prod.mk.injEq,
      List.prefix_concat_iff, or_comm]
    simp

theorem exists_isPrefix_append_singleton (P : List α → α → Prop) (xs : List α) (last : α) :
    (∃ past x, past ++ [x] <+: xs ++ [last] ∧ P past x) ↔
      (∃ past x, past ++ [x] <+: xs ∧ P past x) ∨ P xs last := by
  simp only [List.prefix_concat_iff]
  constructor
  next =>
    rintro ⟨past, x, whole | inside, holds⟩
    next =>
      obtain ⟨rfl, rfl⟩ := List.append_singleton_inj.1 whole
      exact .inr holds
    next => exact .inl ⟨past, x, inside, holds⟩
  next =>
    rintro (⟨past, x, inside, holds⟩ | holds)
    next => exact ⟨past, x, .inr inside, holds⟩
    next => exact ⟨xs, last, .inl rfl, holds⟩

theorem pairwise_withPast (xs : List α) :
    (withPast xs).Pairwise fun reading later => reading.1.length < later.1.length := by
  induction xs using List.reverseRecOn with
  | nil => exact .nil
  | append_singleton xs x ih =>
    rw [withPast_append_singleton, List.pairwise_append]
    refine ⟨ih, List.pairwise_singleton _ _, fun reading member last same => ?_⟩
    have inside := ((mem_withPast ..).1 member).length_le
    rw [List.length_append, List.length_singleton] at inside
    rw [List.mem_singleton.1 same]
    exact inside

def settle (error? : Option ε) (value : β) : Except ε β :=
  match error? with
  | some error => .error error
  | none => .ok value

def firstError (error? : List α → α → Option ε) (xs : List α) : Option ε :=
  (withPast xs).findSome? fun (past, x) => error? past x

theorem bind_eq_ok_iff {γ : Type} (x : Except ε β) (f : β → Except ε γ) (result : γ) :
    (x >>= f) = .ok result ↔ ∃ value, x = .ok value ∧ f value = .ok result := by
  cases x <;> simp [bind, Except.bind]

theorem bind_eq_error_iff {γ : Type} (x : Except ε β) (f : β → Except ε γ) (error : ε) :
    (x >>= f) = .error error ↔
      x = .error error ∨ ∃ value, x = .ok value ∧ f value = .error error := by
  cases x <;> simp [bind, Except.bind]

theorem map_eq_error_iff {γ : Type} (g : β → γ) (x : Except ε β) (error : ε) :
    g <$> x = .error error ↔ x = .error error := by
  cases x <;> simp [Functor.map, Except.map]

theorem exists_map_eq_ok_iff {γ : Type} (g : β → γ) (x : Except ε β) :
    (∃ result, g <$> x = .ok result) ↔ ∃ value, x = .ok value := by
  cases x <;> simp [Functor.map, Except.map]

theorem settle_eq_ok_iff (error? : Option ε) (value result : β) :
    settle error? value = .ok result ↔ error? = none ∧ value = result := by
  cases error? <;> simp [settle]

theorem settle_eq_error_iff (error? : Option ε) (value : β) (error : ε) :
    settle error? value = .error error ↔ error? = some error := by
  cases error? <;> simp [settle]

theorem settle_bind_settle {γ : Type} (error? : Option ε) (value : β) (next : β → Except ε γ)
    (nextError? : Option ε) (result : γ) (h : next value = settle nextError? result) :
    (settle error? value >>= next) = settle (error?.or nextError?) result := by
  cases error? with
  | none => simpa [settle, bind, Except.bind] using h
  | some error => rfl

theorem map_settle {γ : Type} (error? : Option ε) (value : β) (g : β → γ) :
    g <$> settle error? value = settle error? (g value) := by
  cases error? <;> rfl

theorem firstError_eq_none_iff (error? : List α → α → Option ε) (xs : List α) :
    firstError error? xs = none ↔ ∀ past x, past ++ [x] <+: xs → error? past x = none := by
  simp [firstError, mem_withPast]

theorem firstError_append_singleton (error? : List α → α → Option ε) (xs : List α) (x : α) :
    firstError error? (xs ++ [x]) = (firstError error? xs).or (error? xs x) := by
  simp [firstError]

theorem firstError_append (error? : List α → α → Option ε) (xs ys : List α) :
    firstError error? (xs ++ ys) =
      (firstError error? xs).or (firstError (fun past => error? (xs ++ past)) ys) := by
  induction ys using List.reverseRecOn with
  | nil => simp [firstError]
  | append_singleton ys y ih =>
    rw [← List.append_assoc, firstError_append_singleton, ih, firstError_append_singleton,
      Option.or_assoc]

theorem firstError_of_map {β : Type} (error? : List β → β → Option ε) (g : α → β) (xs : List α) :
    firstError error? (xs.map g) = firstError (fun past x => error? (past.map g) (g x)) xs := by
  induction xs using List.reverseRecOn with
  | nil => rfl
  | append_singleton xs x ih =>
    rw [List.map_append, List.map_singleton, firstError_append_singleton, ih,
      firstError_append_singleton]

theorem firstError_eq_some_iff (error? : List α → α → Option ε) (xs : List α) (error : ε) :
    firstError error? xs = some error ↔
      ∃ past x, past ++ [x] <+: xs ∧ firstError error? past = none ∧
        error? past x = some error := by
  induction xs using List.reverseRecOn with
  | nil => simp [firstError]
  | append_singleton xs x ih =>
    rw [firstError_append_singleton, Option.or_eq_some_iff, ih, exists_isPrefix_append_singleton]

theorem firstError_map {ε' : Type} (f : ε → ε') (error? : List α → α → Option ε) (xs : List α) :
    firstError (fun past x => (error? past x).map f) xs = (firstError error? xs).map f := by
  simp [firstError, List.map_findSome?, Function.comp_def]

theorem firstError_const (error? : α → Option ε) (xs : List α) :
    firstError (fun _ => error?) xs = xs.findSome? error? := by
  induction xs using List.reverseRecOn with
  | nil => rfl
  | append_singleton xs x ih => simp [firstError_append_singleton, ih]

theorem firstError_eq_none_iff_nodup (error? : List α → α → Option ε) (key? : α → Option β)
    (fresh : ∀ past x, error? past x = none ↔
      ∃ key, key? x = some key ∧ key ∉ past.filterMap key?) (xs : List α) :
    firstError error? xs = none ↔
      (∀ x ∈ xs, (key? x).isSome = true) ∧ (xs.filterMap key?).Nodup := by
  induction xs using List.reverseRecOn with
  | nil => simp [firstError]
  | append_singleton xs last ih =>
    rw [firstError_append_singleton, Option.or_eq_none_iff, ih, fresh, List.filterMap_append,
      List.forall_mem_append, List.forall_mem_singleton, List.nodup_append_comm]
    cases kept : key? last with
    | none => simp
    | some key =>
      rw [List.filterMap_cons_some kept, List.filterMap_nil, List.singleton_append,
        List.nodup_cons]
      simp only [Option.isSome_some, Option.some.injEq, exists_eq_left', and_true]
      tauto

theorem foldlM_eq_settle (f : σ → α → Except ε σ) (state : List α → σ)
    (error? : List α → α → Option ε)
    (step : ∀ past x, f (state past) x = settle (error? past x) (state (past ++ [x])))
    (xs : List α) :
    xs.foldlM f (state []) = settle (firstError error? xs) (state xs) := by
  induction xs using List.reverseRecOn with
  | nil => rfl
  | append_singleton xs x ih =>
    rw [List.foldlM_append, ih, firstError_append_singleton]
    refine settle_bind_settle _ _ _ _ _ ?_
    simp [step]

theorem mapM_eq_settle (f : α → Except ε β) (error? : α → Option ε) (g : α → β) (xs : List α)
    (each : ∀ x ∈ xs, f x = settle (error? x) (g x)) :
    xs.mapM f = settle (xs.findSome? error?) (xs.map g) := by
  induction xs with
  | nil => rfl
  | cons x xs ih =>
    have head := each x (by simp)
    have rest := ih fun y member => each y (by simp [member])
    rw [List.mapM_cons, head, rest, List.findSome?_cons]
    cases error? x <;> cases xs.findSome? error? <;> rfl

theorem forall₂_and_iff {first second : α → β → Prop} (xs : List α) (ys : List β) :
    List.Forall₂ (fun x y => first x y ∧ second x y) xs ys ↔
      List.Forall₂ first xs ys ∧ List.Forall₂ second xs ys := by
  constructor
  next => exact fun both => ⟨both.imp fun _ _ => And.left, both.imp fun _ _ => And.right⟩
  next =>
    rintro ⟨left, right⟩
    induction left with
    | nil => exact .nil
    | cons head _ ih =>
      cases right with
      | cons other rest => exact .cons ⟨head, other⟩ (ih rest)

theorem forall₂_zipIdx_iff (R : α × Nat → β → Prop) (xs : List α) (ys : List β) :
    List.Forall₂ R xs.zipIdx ys ↔
      xs.length = ys.length ∧
        ∀ (index : Nat) (x : α) (y : β), xs[index]? = some x → ys[index]? = some y →
          R (x, index) y := by
  constructor
  next =>
    intro each
    have size := each.length_eq
    rw [List.length_zipIdx] at size
    refine ⟨size, fun index x y left right => ?_⟩
    obtain ⟨inside, rfl⟩ := List.getElem?_eq_some_iff.1 left
    obtain ⟨within, rfl⟩ := List.getElem?_eq_some_iff.1 right
    simpa using each.get (by simpa using inside) within
  next =>
    intro ⟨size, each⟩
    refine List.forall₂_iff_get.2 ⟨by simpa using size, fun index inside within => ?_⟩
    rw [List.length_zipIdx] at inside
    simpa using each index xs[index] ys[index] (List.getElem?_eq_getElem inside)
      (List.getElem?_eq_getElem within)

theorem mapM_eq_ok_iff (f : α → Except ε β) (xs : List α) (ys : List β) :
    xs.mapM f = .ok ys ↔ List.Forall₂ (fun x y => f x = .ok y) xs ys := by
  induction xs generalizing ys with
  | nil => cases ys <;> simp [pure, Except.pure]
  | cons x xs ih =>
    rw [List.mapM_cons, List.forall₂_cons_left_iff]
    simp only [← ih]
    cases f x with
    | error error => simp [bind, Except.bind]
    | ok y =>
      cases xs.mapM f with
      | error error => simp [bind, Except.bind]
      | ok rest => simp [bind, Except.bind, pure, Except.pure, eq_comm]

theorem mapM_append_eq_ok_iff (f : α → Except ε β) (xs xs' : List α) (ys : List β) :
    (xs ++ xs').mapM f = .ok ys ↔
      ∃ front back, xs.mapM f = .ok front ∧ xs'.mapM f = .ok back ∧ front ++ back = ys := by
  simp only [List.mapM_append, bind_eq_ok_iff, pure, Except.pure, Except.ok.injEq]
  tauto

theorem mapM_congr {f g : α → Except ε β} {xs : List α} (same : ∀ x ∈ xs, f x = g x) :
    xs.mapM f = xs.mapM g := by
  induction xs with
  | nil => rfl
  | cons x xs ih =>
    have rest := ih fun y member => same y (List.mem_cons_of_mem x member)
    rw [List.mapM_cons, List.mapM_cons, same x List.mem_cons_self, rest]

theorem mapM_eq_ok_map {f : α → Except ε β} {g : α → β} {xs : List α}
    (each : ∀ x ∈ xs, f x = .ok (g x)) : xs.mapM f = .ok (xs.map g) := by
  rw [mapM_congr each]
  exact List.mapM_pure

def errorOf : Except ε β → Option ε
  | .error error => some error
  | .ok _ => none

theorem errorOf_eq_some_iff (x : Except ε β) (error : ε) :
    errorOf x = some error ↔ x = .error error := by
  cases x <;> simp [errorOf]

theorem errorOf_eq_none_iff (x : Except ε β) : errorOf x = none ↔ ∃ value, x = .ok value := by
  cases x <;> simp [errorOf]

theorem errorOf_mapM (f : α → Except ε β) (xs : List α) :
    errorOf (xs.mapM f) = xs.findSome? fun x => errorOf (f x) := by
  induction xs with
  | nil => rfl
  | cons x xs ih =>
    rw [List.mapM_cons, List.findSome?_cons, ← ih]
    cases f x with
    | error error => rfl
    | ok y => cases xs.mapM f <;> rfl

theorem mapM_eq_error_iff (f : α → Except ε β) (xs : List α) (error : ε) :
    xs.mapM f = .error error ↔
      ∃ before x after, xs = before ++ x :: after ∧ f x = .error error ∧
        ∀ y ∈ before, ∃ z, f y = .ok z := by
  simp only [← errorOf_eq_some_iff, ← errorOf_eq_none_iff, errorOf_mapM,
    List.findSome?_eq_some_iff]

theorem mapM_zipIdx_eq_error_iff (f : α × Nat → Except ε β) (xs : List α) (error : ε) :
    xs.zipIdx.mapM f = .error error ↔
      ∃ before x after, xs = before ++ x :: after ∧ f (x, before.length) = .error error ∧
        ∀ (index : Nat) (y : α), before[index]? = some y → ∃ z, f (y, index) = .ok z := by
  rw [mapM_eq_error_iff]
  constructor
  next =>
    rintro ⟨front, _, _, split, failed, earlier⟩
    obtain ⟨before, rest, rfl, rfl, tail⟩ := List.zipIdx_eq_append_iff.1 split
    obtain ⟨x, after, rfl, rfl, -⟩ := List.zipIdx_eq_cons_iff.1 tail.symm
    rw [Nat.zero_add] at failed
    exact ⟨before, x, after, rfl, failed, fun index y found =>
      earlier (y, index) (List.mk_mem_zipIdx_iff_getElem?.2 found)⟩
  next =>
    rintro ⟨before, x, after, rfl, failed, earlier⟩
    refine ⟨before.zipIdx, (x, before.length), after.zipIdx (before.length + 1), ?_, failed, ?_⟩
    next => rw [List.zipIdx_append, List.zipIdx_cons, Nat.zero_add]
    next =>
      exact fun (y, index) member =>
        earlier index y (List.mk_mem_zipIdx_iff_getElem?.1 member)

theorem exists_mapM_eq_ok_iff (f : α → Except ε β) (xs : List α) :
    (∃ ys, xs.mapM f = .ok ys) ↔ ∀ x ∈ xs, ∃ y, f x = .ok y := by
  simp only [← errorOf_eq_none_iff, errorOf_mapM, List.findSome?_eq_none_iff]

theorem exists_step_of_foldlM_eq_ok {f : σ → α → Except ε σ} {state result : σ} {xs : List α}
    (accepted : xs.foldlM f state = .ok result) :
    ∀ x ∈ xs, ∃ before after, f before x = .ok after := by
  induction xs generalizing state with
  | nil => simp
  | cons x xs ih =>
    rw [List.foldlM_cons] at accepted
    obtain ⟨next, head, rest⟩ := (bind_eq_ok_iff ..).1 accepted
    exact List.forall_mem_cons.2 ⟨⟨state, next, head⟩, ih rest⟩

theorem foldlM_eq_error_iff (f : σ → α → Except ε σ) (state : σ) (xs : List α) (error : ε) :
    xs.foldlM f state = .error error ↔
      ∃ past x, past ++ [x] <+: xs ∧
        ∃ before, past.foldlM f state = .ok before ∧ f before x = .error error := by
  induction xs using List.reverseRecOn with
  | nil => simp [pure, Except.pure]
  | append_singleton xs last ih =>
    have step (state : σ) : [last].foldlM f state = f state last := by simp
    simp only [List.foldlM_append, step]
    rw [bind_eq_error_iff, ih, exists_isPrefix_append_singleton]

end BroadcastAudit.Replays
