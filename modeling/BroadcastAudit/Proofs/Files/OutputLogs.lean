import BroadcastAudit.Audit
import BroadcastAudit.Proofs.Files.Discovery

set_option autoImplicit false

namespace BroadcastAudit

open Replays

theorem forall₂_filterMap_iff {α β γ : Type} (f : α → Option β) (R : β → γ → Prop) (xs : List α)
    (zs : List γ) :
    List.Forall₂ (fun x z => ∃ y, f x = some y ∧ R y z) xs zs ↔
      (∀ x ∈ xs, (f x).isSome = true) ∧ List.Forall₂ R (xs.filterMap f) zs := by
  induction xs generalizing zs with
  | nil => simp
  | cons x xs ih =>
    rw [List.forall₂_cons_left_iff]
    simp only [ih, List.forall_mem_cons]
    cases kept : f x with
    | none => simp
    | some y =>
      rw [List.filterMap_cons_some kept, List.forall₂_cons_left_iff]
      simp only [Option.some.injEq, exists_eq_left', Option.isSome_some, true_and]
      constructor
      next =>
        exact fun ⟨z, rest, related, ⟨each, others⟩, eq⟩ => ⟨each, z, rest, related, others, eq⟩
      next =>
        exact fun ⟨each, z, rest, related, others, eq⟩ => ⟨z, rest, related, ⟨each, others⟩, eq⟩

namespace FileSystem

variable (files : FileSystem)

def entries (dir : String) (names : List String) : List DirEntry :=
  names.map (Outputs.entry files dir)

def Logs (claim : ProcessId × String) (trace : Trace) : Prop :=
  files.readTrace claim.1 claim.2 = .ok trace

def outputNames (dir : String) (names : List String) : List String :=
  names.filter fun name => Outputs.isOutputName name && files.isFile (Path.join dir name)

structure ReadsAs (dir name : String) (trace : Trace) : Prop where
  named : Outputs.Named name trace.process
  path : trace.path = Path.join dir name
  shown : trace.name = Path.fileName trace.path
  parsed : ∃ text, files.find trace.path = .ok (.file (.ok text)) ∧
    LogFile.parse ⟨trace.name, text⟩ = .ok trace.entries

theorem ofDir_eq_ofEntries {dir : String} {names : List String}
    (directory : files.find dir = .ok (.directory (.ok names))) :
    Outputs.ofDir files dir = Outputs.ofEntries (files.entries dir names) := by
  have listed : files.readNames dir = .ok names := by simp [readNames, directory]
  rw [Outputs.ofDir, listed]
  rfl

theorem readText_eq_ok_iff (path text : String) :
    files.readText path = .ok text ↔ files.find path = .ok (.file (.ok text)) := by
  unfold readText
  split <;> simp_all

theorem logs_iff (claim : ProcessId × String) (trace : Trace) :
    files.Logs claim trace ↔
      trace.process = claim.1 ∧ trace.path = claim.2 ∧ trace.name = Path.fileName trace.path ∧
        ∃ text, files.find trace.path = .ok (.file (.ok text)) ∧
          LogFile.parse ⟨trace.name, text⟩ = .ok trace.entries := by
  obtain ⟨process, path, name, entries⟩ := trace
  simp only [Logs, readTrace, readLog, bind_eq_ok_iff, readText_eq_ok_iff, pure, Except.pure,
    Except.ok.injEq, Trace.mk.injEq]
  constructor
  next =>
    rintro ⟨_, ⟨text, found, rfl⟩, _, parsed, rfl, rfl, rfl, rfl⟩
    exact ⟨rfl, rfl, rfl, text, found, parsed⟩
  next =>
    rintro ⟨rfl, rfl, rfl, text, found, parsed⟩
    exact ⟨_, ⟨text, found, rfl⟩, _, parsed, rfl, rfl, rfl, rfl⟩

theorem isOutput_entry (dir name : String) :
    Outputs.isOutput (Outputs.entry files dir name) =
      (Outputs.isOutputName name && files.isFile (Path.join dir name)) := by
  simp only [Outputs.isOutput, Outputs.entry, isFile]
  rcases files.find (Path.join dir name) with _ | (_ | _ | _) <;> rfl

theorem claims_entries (dir : String) (names : List String) :
    Outputs.claims (files.entries dir names) =
      (files.outputNames dir names).filterMap fun name =>
        (Outputs.processOf? name).map (·, Path.join dir name) := by
  rw [Outputs.claims, entries, outputNames, List.filterMap_map, List.filterMap_filter]
  refine List.filterMap_congr fun name _ => ?_
  simp only [Function.comp_apply, Outputs.claim?, isOutput_entry]
  rfl

theorem processes_of_logs {claims : List (ProcessId × String)} {traces : List Trace}
    (logs : List.Forall₂ files.Logs claims traces) :
    traces.map (·.process) = claims.map Prod.fst := by
  induction logs with
  | nil => rfl
  | cons log _ ih => rw [List.map_cons, List.map_cons, ih, ((files.logs_iff ..).1 log).1]

theorem readsAs_iff {dir name : String} {trace : Trace} (output : Outputs.isOutputName name = true)
    (small : trace.process.val < Numeral.limit) :
    files.ReadsAs dir name trace ↔
      ∃ claim, (Outputs.processOf? name).map (·, Path.join dir name) = some claim ∧
        files.Logs claim trace := by
  simp only [Option.map_eq_some_iff, logs_iff, Outputs.processOf?_eq_some_iff name output]
  constructor
  next => exact fun ⟨named, path, shown, parsed⟩ =>
    ⟨_, ⟨_, ⟨small, named⟩, rfl⟩, rfl, path, shown, parsed⟩
  next =>
    rintro ⟨_, ⟨process, ⟨-, named⟩, rfl⟩, rfl, path, shown, parsed⟩
    exact ⟨named, path, shown, parsed⟩

theorem forall₂_readsAs_iff (dir : String) (names : List String) {found : List Trace}
    (small : ∀ trace ∈ found, trace.process.val < Numeral.limit) :
    List.Forall₂ (files.ReadsAs dir) (files.outputNames dir names) found ↔
      (∀ name ∈ files.outputNames dir names, (Outputs.processOf? name).isSome = true) ∧
        List.Forall₂ files.Logs (Outputs.claims (files.entries dir names)) found := by
  have each := forall₂_filterMap_iff
    (fun name => (Outputs.processOf? name).map (·, Path.join dir name)) files.Logs
    (files.outputNames dir names) found
  simp only [Option.isSome_map] at each
  rw [claims_entries, ← each, List.forall₂_iff_zip, List.forall₂_iff_zip]
  -- Through pairs, since both the name and the trace have to be those of the lists.
  refine and_congr_right fun _ => forall₂_congr fun name trace => forall_congr' fun member => ?_
  obtain ⟨output, inside⟩ := List.of_mem_zip member
  have named := (List.mem_filter.1 output).2
  rw [Bool.and_eq_true] at named
  exact files.readsAs_iff named.1 (small trace inside)

theorem distinct_entries_iff (dir : String) (names : List String) :
    Outputs.Distinct (files.entries dir names) ↔
      (∀ name ∈ files.outputNames dir names, (Outputs.processOf? name).isSome = true) ∧
        (Outputs.claimed (files.entries dir names)).Nodup := by
  refine and_congr_left fun _ => ?_
  simp only [entries, outputNames, List.forall_mem_map, List.mem_filter, Outputs.claim?,
    isOutput_entry, and_imp]
  refine forall₂_congr fun name _ => forall_congr' fun output => ?_
  rw [if_pos output, Option.isSome_map]
  rfl

theorem visible_entries_iff (dir : String) (names : List String) :
    Outputs.Visible (files.entries dir names) ↔
      ∀ name ∈ names, Outputs.isOutputName name = true →
        ∃ entry, files.find (Path.join dir name) = .ok entry := by
  simp only [Outputs.Visible, entries, List.forall_mem_map]
  refine forall₂_congr fun name _ => forall_congr' fun _ => ?_
  simp only [Outputs.entry]
  rcases files.find (Path.join dir name) with _ | (_ | _ | _) <;> simp

end FileSystem

end BroadcastAudit
