import BroadcastAudit.Proofs.Links.Logs

set_option autoImplicit false

namespace BroadcastAudit

open Replays

namespace LogFile

variable (log : LogFile)

inductive SenderFlaw (past : List Text.Line) (line : Text.Line) : Fault → Prop where
  | stray :
      (line.Malformed ∨ ∃ message, line.Tells (.deliver message)) →
        SenderFlaw past line (.notABroadcast (log.place line) line.span)

inductive ReceiverFlaw (past : List Text.Line) (line : Text.Line) : Fault → Prop where
  | stray :
      (line.Malformed ∨ ∃ seq, line.Tells (.broadcast seq)) →
        ReceiverFlaw past line (.notADelivery (log.place line) line.span)
  | repeated (earlier : Text.Line) (message : Message) :
      line.Tells (.deliver message) → earlier ∈ past → earlier.Tells (.deliver message) →
        ReceiverFlaw past line (.repeatedDelivery (log.place line) message)

def StopsAt (flaw : List Text.Line → Text.Line → Fault → Prop) (line : Text.Line) (fault : Fault) :
    Prop :=
  ∃ past, past ++ [line] <+: log.lines ∧
    (∀ before earlier other, before ++ [earlier] <+: past → ¬ flaw before earlier other) ∧
      flaw past line fault

section Stops

variable {log} {flaw : List Text.Line → Text.Line → Fault → Prop}
  {error? : List Text.Line → Text.Line → Option Fault}
  (told : ∀ past line fault, flaw past line fault ↔ error? past line = some fault)

include told

theorem unflawed_iff (past : List Text.Line) :
    (∀ before earlier other, before ++ [earlier] <+: past → ¬ flaw before earlier other) ↔
      firstError error? past = none := by
  rw [firstError_eq_none_iff]
  constructor
  next =>
    intro unflawed before earlier inside
    rw [Option.eq_none_iff_forall_ne_some]
    exact fun other found => unflawed before earlier other inside ((told ..).2 found)
  next =>
    intro free before earlier other inside wrong
    have found := (told ..).1 wrong
    rw [free before earlier inside] at found
    cases found

theorem exists_stopsAt_iff (fault : Fault) :
    (∃ line, log.StopsAt flaw line fault) ↔ firstError error? log.lines = some fault := by
  rw [firstError_eq_some_iff, exists_comm]
  refine exists_congr fun line => exists_congr fun past => and_congr_right fun _ => ?_
  rw [unflawed_iff told, told]

theorem exists_stopsAt_le {past : List Text.Line} {line : Text.Line} {fault : Fault}
    (inside : past ++ [line] <+: log.lines) (wrong : flaw past line fault) :
    ∃ first other, first.number ≤ line.number ∧ log.StopsAt flaw first other := by
  have found : firstError error? (past ++ [line]) ≠ none := by
    rw [firstError_append_singleton, (told ..).1 wrong]
    exact fun free => nomatch (Option.or_eq_none_iff.1 free).2
  obtain ⟨other, found⟩ := Option.ne_none_iff_exists'.1 found
  obtain ⟨before, first, within, free, flawed⟩ := (firstError_eq_some_iff ..).1 found
  have earlier := within.length_le
  have place := Text.number_eq_of_isPrefix (within.trans inside)
  refine ⟨first, other, ?_, before, within.trans inside, (unflawed_iff told before).2 free,
    (told ..).2 flawed⟩
  rw [place, Text.number_eq_of_isPrefix inside]
  simpa using earlier

end Stops

theorem sentSeq?_eq_none_iff (line : Text.Line) :
    sentSeq? line = none ↔ line.Malformed ∨ ∃ message, line.Tells (.deliver message) := by
  simp only [Text.Line.malformed_iff, Text.Line.tells_iff, sentSeq?]
  cases Event.read? line.text with
  | none => simp
  | some event => cases event <;> simp

theorem deliveredMessage?_eq_none_iff (line : Text.Line) :
    deliveredMessage? line = none ↔ line.Malformed ∨ ∃ seq, line.Tells (.broadcast seq) := by
  simp only [Text.Line.malformed_iff, Text.Line.tells_iff, deliveredMessage?]
  cases Event.read? line.text with
  | none => simp
  | some event => cases event <;> simp

theorem senderFlaw_iff (past : List Text.Line) (line : Text.Line) (fault : Fault) :
    log.SenderFlaw past line fault ↔ log.sendingFault? line = some fault := by
  unfold sendingFault?
  constructor
  next =>
    intro flaw
    cases flaw with
    | stray stray => rw [(sentSeq?_eq_none_iff line).2 stray]
  next =>
    intro found
    cases kept : sentSeq? line with
    | some seq => simp [kept] at found
    | none =>
      rw [kept, Option.some.injEq] at found
      subst found
      exact .stray ((sentSeq?_eq_none_iff line).1 kept)

theorem receiverFlaw_iff (past : List Text.Line) (line : Text.Line) (fault : Fault) :
    log.ReceiverFlaw past line fault ↔ log.receivingFault? past line = some fault := by
  have before (message : Message) : message ∈ past.filterMap deliveredMessage? ↔
      ∃ earlier ∈ past, earlier.Tells (.deliver message) := by
    simp only [List.mem_filterMap, deliveredMessage?_eq_some_iff]
  unfold receivingFault?
  constructor
  next =>
    intro flaw
    cases flaw with
    | stray stray => rw [(deliveredMessage?_eq_none_iff line).2 stray]
    | repeated earlier message tells inside again =>
      rw [(deliveredMessage?_eq_some_iff line message).2 tells]
      exact if_pos ((before message).2 ⟨earlier, inside, again⟩)
  next =>
    intro found
    cases kept : deliveredMessage? line with
    | none =>
      rw [kept, Option.some.injEq] at found
      subst found
      exact .stray ((deliveredMessage?_eq_none_iff line).1 kept)
    | some message =>
      simp only [kept, Option.ite_none_right_eq_some, Option.some.injEq] at found
      obtain ⟨known, same⟩ := found
      subst same
      obtain ⟨earlier, inside, again⟩ := (before message).1 known
      have tells := (deliveredMessage?_eq_some_iff line message).1 kept
      exact .repeated earlier message tells inside again

theorem readSent_eq_error_iff (fault : Fault) :
    log.readSent = .error fault ↔ ∃ line, log.StopsAt log.SenderFlaw line fault := by
  rw [readSent_eq_settle, exists_stopsAt_iff log.senderFlaw_iff, ← firstError_const,
    settle_eq_error_iff]

theorem readDelivered_eq_error_iff (fault : Fault) :
    log.readDelivered = .error fault ↔ ∃ line, log.StopsAt log.ReceiverFlaw line fault := by
  rw [readDelivered_eq_settle, exists_stopsAt_iff log.receiverFlaw_iff, settle_eq_error_iff]

theorem forall_entries_iff {entries : List LogEntry} (parsed : log.parse = .ok entries)
    (kind : Event → Prop) :
    (∀ entry ∈ entries, kind entry.event) ↔
      ∀ line ∈ log.lines, ∃ event, line.Tells event ∧ kind event := by
  rw [parse, mapM_eq_ok_iff] at parsed
  generalize log.lines = lines at parsed ⊢
  induction parsed with
  | nil => simp
  | @cons line entry _ _ head _ ih =>
    have read := ((log.readLine_eq_ok_iff line entry).1 head).2
    rw [List.forall_mem_cons, List.forall_mem_cons, ih]
    simp [Text.Line.tells_iff, read]

theorem exists_parse_forall_iff (kind : Event → Prop) :
    (∀ line ∈ log.lines, ∃ event, line.Tells event ∧ kind event) ↔
      ∃ entries, log.parse = .ok entries ∧ ∀ entry ∈ entries, kind entry.event := by
  constructor
  next =>
    intro each
    have wellFormed : ∀ line ∈ log.lines, ¬ line.Malformed := by
      intro line member
      obtain ⟨event, tells, -⟩ := each line member
      exact fun malformed => malformed ⟨event, tells⟩
    obtain ⟨entries, parsed⟩ := log.exists_parse_iff.2 wellFormed
    exact ⟨entries, parsed, (log.forall_entries_iff parsed kind).2 each⟩
  next => exact fun ⟨_, parsed, each⟩ => (log.forall_entries_iff parsed kind).1 each

theorem readSent_eq_ok_iff_parse (sent : Std.ExtTreeSet Nat) :
    log.readSent = .ok sent ↔
      ∃ entries, log.parse = .ok entries ∧
        (∀ entry ∈ entries, ∃ seq, entry.event = .broadcast seq) ∧
          ∀ seq, seq ∈ sent ↔ seq ∈ History.broadcasts entries := by
  have sends : log.SendsOnly ↔ ∃ entries, log.parse = .ok entries ∧
      ∀ entry ∈ entries, ∃ seq, entry.event = .broadcast seq := by
    rw [← log.exists_parse_forall_iff fun event => ∃ seq, event = .broadcast seq]
    simp [SendsOnly]
  have same {entries : List LogEntry} (parsed : log.parse = .ok entries) :
      .ofList log.sentSeqs = sent ↔ ∀ seq, seq ∈ sent ↔ seq ∈ History.broadcasts entries := by
    rw [sentSeqs_eq_broadcasts parsed]
    constructor
    next =>
      intro read seq
      rw [← read, Std.ExtTreeSet.mem_ofList, List.contains_iff_mem]
    next =>
      intro members
      refine Std.ExtTreeSet.ext_mem fun seq => ?_
      rw [members, Std.ExtTreeSet.mem_ofList, List.contains_iff_mem]
  rw [readSent_eq_ok_iff, sends]
  constructor
  next =>
    rintro ⟨⟨entries, parsed, each⟩, read⟩
    exact ⟨entries, parsed, each, (same parsed).1 read⟩
  next =>
    rintro ⟨entries, parsed, each, members⟩
    exact ⟨⟨entries, parsed, each⟩, (same parsed).2 members⟩

theorem readDelivered_eq_ok_iff_parse (delivered : MessageSets) :
    log.readDelivered = .ok delivered ↔
      ∃ entries, log.parse = .ok entries ∧
        (∀ entry ∈ entries, ∃ message, entry.event = .deliver message) ∧
          (History.deliveries entries).Nodup ∧ delivered.Groups (History.deliveries entries) := by
  have delivers : (∀ line ∈ log.lines, ∃ message, line.Tells (.deliver message)) ↔
      ∃ entries, log.parse = .ok entries ∧
        ∀ entry ∈ entries, ∃ message, entry.event = .deliver message := by
    rw [← log.exists_parse_forall_iff fun event => ∃ message, event = .deliver message]
    simp
  rw [readDelivered_eq_ok_iff]
  constructor
  next =>
    intro ⟨once, read⟩
    obtain ⟨entries, parsed, each⟩ := delivers.1 once.delivery
    have messages := deliveredMessages_eq_deliveries parsed
    have nodup := log.nodup_deliveredMessages_iff.2 once.once
    rw [messages] at nodup read
    exact ⟨entries, parsed, each, nodup, read ▸ MessageSets.groups_ofMessages _⟩
  next =>
    intro ⟨entries, parsed, each, nodup, groups⟩
    have messages := deliveredMessages_eq_deliveries parsed
    rw [← messages, nodup_deliveredMessages_iff] at nodup
    refine ⟨⟨delivers.2 ⟨entries, parsed, each⟩, nodup⟩, ?_⟩
    rw [messages]
    exact (MessageSets.groups_ofMessages _).unique groups

theorem readers_stop_no_later (line : Text.Line) (malformed : log.FirstMalformed line) :
    (∃ first fault, first.number ≤ line.number ∧ log.StopsAt log.SenderFlaw first fault) ∧
      ∃ first fault, first.number ≤ line.number ∧ log.StopsAt log.ReceiverFlaw first fault := by
  obtain ⟨unread, before, after, split, -⟩ := malformed
  have inside : before ++ [line] <+: log.lines := ⟨after, by rw [split]; simp⟩
  exact ⟨exists_stopsAt_le log.senderFlaw_iff inside (.stray (.inl unread)),
    exists_stopsAt_le log.receiverFlaw_iff inside (.stray (.inl unread))⟩

/-- A reader of links accepts the logs that the parser accepts and that have events of its kind
only, for a receiver each once, and it returns what these say. Of any other log it reports the
first line with a flaw, which is never after the first malformed line, where the parser stops. -/
theorem readers_agree_with_parse :
    (∀ sent, log.readSent = .ok sent ↔
        ∃ entries, log.parse = .ok entries ∧
          (∀ entry ∈ entries, ∃ seq, entry.event = .broadcast seq) ∧
            ∀ seq, seq ∈ sent ↔ seq ∈ History.broadcasts entries) ∧
      (∀ fault, log.readSent = .error fault ↔ ∃ line, log.StopsAt log.SenderFlaw line fault) ∧
      (∀ delivered, log.readDelivered = .ok delivered ↔
        ∃ entries, log.parse = .ok entries ∧
          (∀ entry ∈ entries, ∃ message, entry.event = .deliver message) ∧
            (History.deliveries entries).Nodup ∧
              delivered.Groups (History.deliveries entries)) ∧
      (∀ fault, log.readDelivered = .error fault ↔
        ∃ line, log.StopsAt log.ReceiverFlaw line fault) ∧
      ∀ fault, log.parse = .error fault →
        ∃ line, log.FirstMalformed line ∧ fault = .notAnEvent (log.place line) line.span ∧
          (∃ first other, first.number ≤ line.number ∧ log.StopsAt log.SenderFlaw first other ∧
            log.readSent = .error other) ∧
          ∃ first other, first.number ≤ line.number ∧ log.StopsAt log.ReceiverFlaw first other ∧
            log.readDelivered = .error other := by
  refine ⟨log.readSent_eq_ok_iff_parse, log.readSent_eq_error_iff,
    log.readDelivered_eq_ok_iff_parse, log.readDelivered_eq_error_iff, fun fault failed => ?_⟩
  obtain ⟨line, malformed, rfl⟩ := (log.parse_eq_error_iff fault).1 failed
  obtain ⟨⟨stray, other, early, stops⟩, refused, another, earlier, ends⟩ :=
    log.readers_stop_no_later line malformed
  exact ⟨line, malformed, rfl,
    ⟨stray, other, early, stops, (log.readSent_eq_error_iff other).2 ⟨stray, stops⟩⟩,
    refused, another, earlier, ends, (log.readDelivered_eq_error_iff another).2 ⟨refused, ends⟩⟩

def repeatingLog : LogFile :=
  ⟨"1.output", "d 2 1\nd 2 01\nb\n"⟩

-- A sender's reader stops at the first line, a receiver's at the second, the parser at the third.
theorem readers_agree_with_parse_repeating :
    repeatingLog.parse = .error (.notAnEvent ⟨"1.output", 3⟩ ⟨13, 1⟩) ∧
      (∃ line, repeatingLog.StopsAt repeatingLog.SenderFlaw line
        (.notABroadcast ⟨"1.output", 1⟩ ⟨0, 5⟩)) ∧
      (∃ line, repeatingLog.StopsAt repeatingLog.ReceiverFlaw line
        (.repeatedDelivery ⟨"1.output", 2⟩ ⟨.ofIndex 1, 1⟩)) ∧
      ∃ line, repeatingLog.FirstMalformed line ∧ ∃ first other, first.number ≤ line.number ∧
        repeatingLog.StopsAt repeatingLog.ReceiverFlaw first other := by
  have parsed : repeatingLog.parse = .error (.notAnEvent ⟨"1.output", 3⟩ ⟨13, 1⟩) :=
    (errorOf_eq_some_iff ..).1 (by decide +kernel)
  have sent : repeatingLog.readSent = .error (.notABroadcast ⟨"1.output", 1⟩ ⟨0, 5⟩) :=
    (errorOf_eq_some_iff ..).1 (by decide +kernel)
  have delivered : repeatingLog.readDelivered =
      .error (.repeatedDelivery ⟨"1.output", 2⟩ ⟨.ofIndex 1, 1⟩) :=
    (errorOf_eq_some_iff ..).1 (by decide +kernel)
  obtain ⟨-, sends, -, delivers, stops⟩ := repeatingLog.readers_agree_with_parse
  obtain ⟨line, malformed, -, -, first, other, early, flawed, -⟩ := stops _ parsed
  exact ⟨parsed, (sends _).1 sent, (delivers _).1 delivered, line, malformed, first, other, early,
    flawed⟩

end LogFile

end BroadcastAudit
