import BroadcastAudit.Config.Hosts
import BroadcastAudit.Proofs.Replays
import BroadcastAudit.Proofs.Text.Numerals

set_option autoImplicit false

namespace BroadcastAudit.Hosts

open Replays Text

def Names (process : ProcessId) (line : List Char) : Prop :=
  ∃ lead digits rest, line = lead ++ (digits ++ rest) ∧ Spaces lead ∧
    Numeral.Denotes digits process.val ∧ Bounded rest

structure Lists (lines : List Line) (ids : List ProcessId) : Prop where
  names : List.Forall₂ (fun line id => Names id line.text) lines ids
  nodup : ids.Nodup

inductive Flawed (past : List Line) (line : Line) : HostsFlaw → Prop
  | unnamed : (∀ process, ¬ Names process line.text) → Flawed past line (.notProcess line.quoted)
  | repeated (process : ProcessId) (earlier : Line) :
      earlier ∈ past → Names process earlier.text → Names process line.text →
        Flawed past line (.listedTwice process)

theorem readId?_eq_some_iff (line : List Char) (process : ProcessId) :
    readId? line = some process ↔ Names process line := by
  simp only [readId?, Option.bind_eq_some_iff, Numeral.read?_eq_some_iff_denotes,
    ProcessId.ofNat?_eq_some_iff]
  constructor
  next =>
    rintro ⟨digits, first, _, denotes, rfl⟩
    obtain ⟨words, read⟩ := List.head?_eq_some_iff.1 first
    obtain ⟨lead, rest, split, spaces, -, bounded, -⟩ := (fields_eq_cons_iff ..).1 read
    exact ⟨lead, digits, rest, split, spaces, denotes, bounded⟩
  next =>
    rintro ⟨lead, digits, rest, rfl, spaces, denotes, bounded⟩
    refine ⟨digits, ?_, _, denotes, rfl⟩
    rw [fields_spaces_append spaces, fields_word_append denotes.isWord bounded, List.head?_cons]

theorem readId?_eq_none_iff (line : List Char) :
    readId? line = none ↔ ∀ process, ¬ Names process line := by
  simp only [Option.eq_none_iff_forall_ne_some, ne_eq, readId?_eq_some_iff]

theorem Lists.mem_iff {lines : List Line} {ids : List ProcessId} (lists : Lists lines ids)
    (process : ProcessId) : process ∈ ids ↔ ∃ line ∈ lines, Names process line.text := by
  have read : lines.map (fun line => readId? line.text) = ids.map some := by
    rw [← List.forall₂_eq_eq_eq, List.forall₂_map_left_iff, List.forall₂_map_right_iff]
    exact lists.names.imp fun _ _ => (readId?_eq_some_iff ..).2
  rw [← List.mem_map_of_injective (f := some) fun _ _ => Option.some.inj, ← read, List.mem_map]
  simp only [readId?_eq_some_iff]

variable (file : String)

theorem add_eq_ok_iff (hosts result : Hosts) (line : Line) :
    add file hosts line = .ok result ↔
      ∃ id, Names id line.text ∧ id ∉ hosts.ids ∧ result.ids = hosts.ids ++ [id] := by
  obtain ⟨ids, nodup⟩ := result
  simp only [← readId?_eq_some_iff, add]
  split
  next unread => simp [unread]
  next id read =>
    split
    next listed => simp [read, listed]
    next fresh => simp [read, fresh, eq_comm]

section Refused

variable {past : List Line} {hosts : Hosts} (lists : Lists past hosts.ids) {line : Line}

include lists

theorem Flawed.add_eq {flaw : HostsFlaw} (flawed : Flawed past line flaw) :
    add file hosts line = .error (.badHosts ⟨file, line.number⟩ flaw) := by
  cases flawed with
  | unnamed unnamed => simp only [add, (readId?_eq_none_iff line.text).2 unnamed]
  | repeated process earlier member earlierNames names =>
    have listed := (lists.mem_iff process).2 ⟨earlier, member, earlierNames⟩
    simp only [add, (readId?_eq_some_iff line.text process).2 names, dif_pos listed]

theorem exists_flawed_of_add {fault : Fault} (refused : add file hosts line = .error fault) :
    ∃ flaw, Flawed past line flaw ∧ .badHosts ⟨file, line.number⟩ flaw = fault := by
  rw [add] at refused
  split at refused
  next unread =>
    cases refused
    exact ⟨_, .unnamed ((readId?_eq_none_iff line.text).1 unread), rfl⟩
  next id read =>
    split at refused
    next listed =>
      cases refused
      obtain ⟨earlier, member, names⟩ := (lists.mem_iff id).1 listed
      exact ⟨_, .repeated id earlier member names ((readId?_eq_some_iff line.text id).1 read), rfl⟩
    next => cases refused

end Refused

theorem foldlM_add_eq_ok_iff (lines : List Line) (hosts result : Hosts) :
    lines.foldlM (add file) hosts = .ok result ↔
      ∃ ids, List.Forall₂ (fun line id => Names id line.text) lines ids ∧
        result.ids = hosts.ids ++ ids := by
  induction lines generalizing hosts with
  | nil =>
    obtain ⟨ids, nodup⟩ := hosts
    obtain ⟨others, otherNodup⟩ := result
    simp [pure, Except.pure, eq_comm]
  | cons line lines ih =>
    simp only [List.foldlM_cons, bind_eq_ok_iff, add_eq_ok_iff, ih, List.forall₂_cons_left_iff]
    constructor
    next =>
      rintro ⟨next, ⟨id, names, -, added⟩, ids, others, listed⟩
      refine ⟨id :: ids, ⟨id, ids, names, others, rfl⟩, ?_⟩
      rw [listed, added, List.append_assoc, List.singleton_append]
    next =>
      rintro ⟨_, ⟨id, ids, names, others, rfl⟩, listed⟩
      rw [← List.singleton_append, ← List.append_assoc] at listed
      have nodup : (hosts.ids ++ [id]).Nodup := (listed ▸ result.nodup).of_append_left
      have fresh : id ∉ hosts.ids := fun member =>
        List.disjoint_of_nodup_append nodup member (List.mem_singleton_self id)
      exact ⟨⟨_, nodup⟩, ⟨id, names, fresh, rfl⟩, ids, others, listed⟩

theorem foldlM_add_empty_eq_ok_iff (lines : List Line) (hosts : Hosts) :
    lines.foldlM (add file) empty = .ok hosts ↔ Lists lines hosts.ids := by
  rw [foldlM_add_eq_ok_iff]
  constructor
  next =>
    rintro ⟨ids, names, rfl⟩
    exact ⟨names, hosts.nodup⟩
  next => exact fun lists => ⟨_, lists.names, rfl⟩

/-- A text is read if its lines list processes, which are then the hosts in the order of the lines,
and contained are those that some line names. Otherwise the first line that names no process, or one
that an earlier line names, is reported. -/
theorem hosts_by_lines (file text : String) :
    (∀ ids, (∃ hosts, parse file text = .ok hosts ∧ hosts.ids = ids) ↔
        Lists (Text.lines text) ids) ∧
      (∀ hosts, parse file text = .ok hosts → ∀ process, hosts.contains process = true ↔
        ∃ line ∈ Text.lines text, Names process line.text) ∧
      ∀ fault, parse file text = .error fault ↔
        ∃ past line flaw, past ++ [line] <+: Text.lines text ∧ (∃ ids, Lists past ids) ∧
          Flawed past line flaw ∧ .badHosts ⟨file, line.number⟩ flaw = fault := by
  have accepted := foldlM_add_empty_eq_ok_iff file
  refine ⟨fun ids => ⟨?_, ?_⟩, fun hosts parsed process => ?_, fun fault => ⟨?_, ?_⟩⟩
  next =>
    rintro ⟨hosts, parsed, rfl⟩
    exact (accepted _ hosts).1 parsed
  next => exact fun lists => ⟨⟨ids, lists.nodup⟩, (accepted _ ⟨ids, _⟩).2 lists, rfl⟩
  next => rw [contains, List.contains_iff_mem, ((accepted _ hosts).1 parsed).mem_iff]
  next =>
    intro failed
    obtain ⟨past, line, inside, before, read, refused⟩ := (foldlM_eq_error_iff ..).1 failed
    have lists := (accepted past before).1 read
    obtain ⟨flaw, flawed, same⟩ := exists_flawed_of_add file lists refused
    exact ⟨past, line, flaw, inside, ⟨_, lists⟩, flawed, same⟩
  next =>
    rintro ⟨past, line, flaw, inside, ⟨ids, lists⟩, flawed, rfl⟩
    have read := (accepted past ⟨ids, lists.nodup⟩).2 lists
    exact (foldlM_eq_error_iff ..).2 ⟨past, line, inside, _, read, flawed.add_eq file lists⟩

def unsortedText : String :=
  " \t07\thost\r7\n1\r\n3 \u00e9\u2003 x\n\u00a0\n"

theorem hosts_by_lines_unsorted :
    ∃ hosts, parse "hosts" unsortedText = .ok hosts ∧
      hosts.ids = [.ofIndex 6, .ofIndex 0, .ofIndex 2] ∧
        Lists (Text.lines unsortedText) hosts.ids ∧ hosts.contains (.ofIndex 6) = true ∧
          ∃ line ∈ Text.lines unsortedText, Names (.ofIndex 6) line.text := by
  have parsed : parse "hosts" unsortedText =
      .ok ⟨[.ofIndex 6, .ofIndex 0, .ofIndex 2], by decide⟩ := by
    decide +kernel
  obtain ⟨accepted, contained, -⟩ := hosts_by_lines "hosts" unsortedText
  have listed := (contained _ parsed (.ofIndex 6)).1 (by decide)
  exact ⟨_, parsed, rfl, (accepted _).1 ⟨_, parsed, rfl⟩, by decide, listed⟩

end BroadcastAudit.Hosts
