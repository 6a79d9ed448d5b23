import BroadcastAudit.Files.Outputs
import BroadcastAudit.Proofs.Replays
import Mathlib.Data.List.Perm.Subperm

set_option autoImplicit false

namespace BroadcastAudit.Outputs

open Replays

def isOutput (entry : DirEntry) : Bool :=
  isOutputName entry.name &&
    match entry.isFile with
    | .ok isFile => isFile
    | .error _ => false

def Named (name : String) (process : ProcessId) : Prop :=
  ∃ digits, name.toList = digits ++ ending ∧ Numeral.isDigits digits = true ∧
    Numeral.value digits = process.val

theorem perm_iff_of_nodup {found processes : List ProcessId} (nodup : processes.Nodup) :
    found.Perm processes ↔
      found.length = processes.length ∧ ∀ process ∈ processes, process ∈ found := by
  constructor
  next => exact fun each => ⟨each.length_eq, fun process => each.mem_iff.2⟩
  next =>
    intro ⟨size, each⟩
    -- As many are found as wanted, and all that are wanted: there is room for no other.
    exact ((nodup.subperm each).perm_of_length_le (Nat.le_of_eq size)).symm

theorem mem_files_iff_of_nodup (outputs : Outputs) {processes : List ProcessId}
    (nodup : processes.Nodup) :
    (∀ process, process ∈ outputs.files ↔ process ∈ processes) ↔
      outputs.size = processes.length ∧ ∀ process ∈ processes, process ∈ outputs.files := by
  have distinct : outputs.files.keys.Nodup :=
    Std.ExtTreeMap.distinct_keys.imp fun apart same => apart (Std.compare_eq_iff_eq.2 same)
  have each : outputs.files.keys.Perm processes ↔ _ := perm_iff_of_nodup nodup
  rw [List.perm_ext_iff_of_nodup distinct nodup] at each
  simpa only [Std.ExtTreeMap.mem_keys, Std.ExtTreeMap.length_keys, size] using each

theorem isOutputName_iff (name : String) :
    isOutputName name = true ↔ ∃ stem, name.toList = stem ++ ending := by
  rw [isOutputName, List.isSuffixOf_iff_suffix, List.IsSuffix]
  simp only [eq_comm]

theorem processOf?_eq_some_iff (name : String) (output : isOutputName name = true)
    (process : ProcessId) :
    processOf? name = some process ↔ process.val < Numeral.limit ∧ Named name process := by
  obtain ⟨stem, eq⟩ := (isOutputName_iff name).1 output
  have digits (other : List Char) : name.toList = other ++ ending ↔ stem = other := by
    rw [eq, List.append_left_inj]
  have cut : name.toList.take (name.toList.length - ending.length) = stem := by simp [eq]
  simp only [processOf?, cut, Option.bind_eq_some_iff, Numeral.read?_eq_some_iff,
    ProcessId.ofNat?_eq_some_iff, Named, digits, exists_eq_left']
  constructor
  next =>
    rintro ⟨_, ⟨decimal, small, rfl⟩, same⟩
    exact ⟨same ▸ small, decimal, same.symm⟩
  next =>
    rintro ⟨small, decimal, same⟩
    exact ⟨_, ⟨decimal, same ▸ small, rfl⟩, same.symm⟩

def claim? (entry : DirEntry) : Option (ProcessId × String) :=
  if isOutput entry then (processOf? entry.name).map (·, entry.path) else none

def claims (entries : List DirEntry) : List (ProcessId × String) :=
  entries.filterMap claim?

def claimed (entries : List DirEntry) : List ProcessId :=
  (claims entries).map Prod.fst

def after (entries : List DirEntry) : Outputs :=
  ⟨(claims entries).foldl (fun files claim => files.insert claim.1 claim.2) ∅⟩

def entryFault? (past : List DirEntry) (entry : DirEntry) : Option Fault :=
  if isOutputName entry.name then
    match entry.isFile with
    | .error refusal => some (.unreadable .queryMetadata entry.path refusal)
    | .ok false => none
    | .ok true =>
      match processOf? entry.name with
      | none => some (.badOutputName entry.path)
      | some process => if process ∈ claimed past then some (.badOutputName entry.path) else none
  else none

theorem claimed_append_singleton (past : List DirEntry) (entry : DirEntry) :
    claimed (past ++ [entry]) = claimed past ++ ((claim? entry).map Prod.fst).toList := by
  cases added : claim? entry <;> simp [claimed, claims, added]

theorem after_append_singleton (past : List DirEntry) (entry : DirEntry) :
    after (past ++ [entry]) =
      match claim? entry with
      | none => after past
      | some (process, path) => ⟨(after past).files.insert process path⟩ := by
  cases added : claim? entry <;> simp [after, claims, added]

theorem mem_after (entries : List DirEntry) (process : ProcessId) :
    process ∈ (after entries).files ↔ process ∈ claimed entries := by
  induction entries using List.reverseRecOn with
  | nil => simp [after, claims, claimed]
  | append_singleton past entry ih =>
    rw [after_append_singleton, claimed_append_singleton]
    cases claim? entry with
    | none => simpa using ih
    | some claim =>
      simp only [Std.ExtTreeMap.mem_insert, Std.compare_eq_iff_eq, ih, Option.map_some,
        Option.toList_some, List.mem_append, List.mem_singleton]
      rw [or_comm, eq_comm]

theorem add_after (past : List DirEntry) (entry : DirEntry) :
    add (after past) entry = settle (entryFault? past entry) (after (past ++ [entry])) := by
  rw [after_append_singleton]
  unfold add entryFault? claim? isOutput
  by_cases named : isOutputName entry.name
  next =>
    simp only [named, if_true, Bool.true_and]
    cases entry.isFile with
    | error refusal => rfl
    | ok isFile =>
      cases isFile with
      | false => rfl
      | true =>
        cases processOf? entry.name with
        | none => rfl
        | some process =>
          by_cases known : process ∈ claimed past <;> simp [mem_after, known, settle]
  next => simp [named, settle]

theorem ofEntries_eq_settle (entries : List DirEntry) :
    ofEntries entries = settle (firstError entryFault? entries) (after entries) :=
  foldlM_eq_settle add after entryFault? add_after entries

def Visible (entries : List DirEntry) : Prop :=
  ∀ entry ∈ entries, isOutputName entry.name = true → ∃ isFile, entry.isFile = .ok isFile

def Distinct (entries : List DirEntry) : Prop :=
  (∀ entry ∈ entries, isOutput entry = true → (claim? entry).isSome = true) ∧
    (claimed entries).Nodup

theorem entryFault?_eq_none_iff (past : List DirEntry) (entry : DirEntry) :
    entryFault? past entry = none ↔
      (isOutputName entry.name = true → ∃ isFile, entry.isFile = .ok isFile) ∧
        (isOutput entry = true → ∃ claim, claim? entry = some claim ∧ claim.1 ∉ claimed past) := by
  unfold entryFault? claim? isOutput
  by_cases named : isOutputName entry.name
  next =>
    cases entry.isFile with
    | error refusal => simp [named]
    | ok isFile =>
      cases isFile with
      | false => simp [named]
      | true => cases processOf? entry.name <;> simp [named]
  next => simp [named]

theorem firstError_eq_none_iff_distinct (entries : List DirEntry) :
    firstError entryFault? entries = none ↔ Visible entries ∧ Distinct entries := by
  induction entries using List.reverseRecOn with
  | nil => simp [firstError, Visible, Distinct, claimed, claims]
  | append_singleton past entry ih =>
    rw [firstError_append_singleton, Option.or_eq_none_iff, ih, entryFault?_eq_none_iff,
      Distinct, Distinct, claimed_append_singleton]
    simp only [Visible, List.forall_mem_append, List.forall_mem_singleton]
    cases added : claim? entry with
    | none =>
      simp only [reduceCtorEq, false_and, exists_false, Option.map_none, Option.toList_none,
        List.append_nil, Option.isSome_none, Bool.false_eq_true]
      tauto
    | some claim =>
      have output : isOutput entry = true := by
        by_contra other
        simp [claim?, other] at added
      simp only [output, Option.some.injEq, exists_eq_left', Option.map_some, Option.toList_some,
        Option.isSome_some, forall_const, and_true]
      rw [List.nodup_append_comm, List.singleton_append, List.nodup_cons]
      tauto

theorem claims_append_singleton (past : List DirEntry) (entry : DirEntry) :
    claims (past ++ [entry]) = claims past ++ (claim? entry).toList := by
  cases added : claim? entry <;> simp [claims, added]

theorem fresh_of_nodup {past : List DirEntry} {entry : DirEntry} {claim : ProcessId × String}
    (nodup : (claimed (past ++ [entry])).Nodup) (added : claim? entry = some claim) :
    claim.1 ∉ (after past).files := by
  rw [claimed_append_singleton, added, List.nodup_append_comm] at nodup
  rw [mem_after]
  exact (List.nodup_cons.1 nodup).1

theorem nodup_of_append {past : List DirEntry} {entry : DirEntry}
    (nodup : (claimed (past ++ [entry])).Nodup) : (claimed past).Nodup := by
  rw [claimed_append_singleton] at nodup
  exact (List.nodup_append.1 nodup).1

theorem size_after (entries : List DirEntry) (nodup : (claimed entries).Nodup) :
    (after entries).size = (claims entries).length := by
  induction entries using List.reverseRecOn with
  | nil => simp [after, claims, size]
  | append_singleton past entry ih =>
    have grown := ih (nodup_of_append nodup)
    rw [after_append_singleton, claims_append_singleton]
    cases added : claim? entry with
    | none => simpa using grown
    | some claim =>
      simp only [size] at grown ⊢
      simp [Std.ExtTreeMap.size_insert, fresh_of_nodup nodup added, grown]

theorem getElem?_after (entries : List DirEntry) (nodup : (claimed entries).Nodup)
    (process : ProcessId) (path : String) :
    (after entries).files[process]? = some path ↔ (process, path) ∈ claims entries := by
  induction entries using List.reverseRecOn with
  | nil => simp [after, claims]
  | append_singleton past entry ih =>
    have before := ih (nodup_of_append nodup)
    rw [after_append_singleton, claims_append_singleton]
    cases added : claim? entry with
    | none => simpa using before
    | some claim =>
      have fresh := fresh_of_nodup nodup added
      obtain ⟨owner, place⟩ := claim
      simp only [Std.ExtTreeMap.getElem?_insert, Std.compare_eq_iff_eq, Option.toList_some,
        List.mem_append, List.mem_singleton, Prod.mk.injEq, ← before]
      split
      next same =>
        subst same
        simp [Std.ExtTreeMap.getElem?_eq_none fresh, eq_comm]
      next other =>
        have apart : ¬ process = owner := fun same => other same.symm
        simp [apart]

theorem pathOf_after (entries : List DirEntry) (nodup : (claimed entries).Nodup)
    (process : ProcessId) (path : String) :
    (after entries).pathOf process = .ok path ↔ (process, path) ∈ claims entries := by
  rw [← getElem?_after entries nodup]
  unfold pathOf
  cases (after entries).files[process]? <;> simp

theorem ofEntries_eq_ok_iff (entries : List DirEntry) (outputs : Outputs) :
    ofEntries entries = .ok outputs ↔
      Visible entries ∧ Distinct entries ∧ after entries = outputs := by
  rw [ofEntries_eq_settle, settle_eq_ok_iff, firstError_eq_none_iff_distinct, and_assoc]

end BroadcastAudit.Outputs
