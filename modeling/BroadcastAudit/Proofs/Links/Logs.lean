import BroadcastAudit.History
import BroadcastAudit.Links
import BroadcastAudit.Proofs.MalformedLines
import BroadcastAudit.Proofs.MessageSets

set_option autoImplicit false

namespace BroadcastAudit

open Replays

namespace LogFile

variable (log : LogFile)

def Sends (seq : Nat) : Prop :=
  ∃ line ∈ log.lines, line.Tells (.broadcast seq)

def Delivers (message : Message) : Prop :=
  ∃ line ∈ log.lines, line.Tells (.deliver message)

def SendsOnly : Prop :=
  ∀ line ∈ log.lines, ∃ seq, line.Tells (.broadcast seq)

structure DeliversOnce : Prop where
  delivery : ∀ line ∈ log.lines, ∃ message, line.Tells (.deliver message)
  once : log.lines.Pairwise fun line later =>
    ∀ message, line.Tells (.deliver message) → ¬ later.Tells (.deliver message)

def sentSeq? (line : Text.Line) : Option Nat :=
  match Event.read? line.text with
  | some (.broadcast seq) => some seq
  | _ => none

def deliveredMessage? (line : Text.Line) : Option Message :=
  match Event.read? line.text with
  | some (.deliver message) => some message
  | _ => none

def sentSeqs : List Nat :=
  log.lines.filterMap sentSeq?

def deliveredMessages : List Message :=
  log.lines.filterMap deliveredMessage?

theorem sentSeq?_eq_some_iff (line : Text.Line) (seq : Nat) :
    sentSeq? line = some seq ↔ line.Tells (.broadcast seq) := by
  rw [Text.Line.tells_iff, sentSeq?]
  split <;> simp_all

theorem deliveredMessage?_eq_some_iff (line : Text.Line) (message : Message) :
    deliveredMessage? line = some message ↔ line.Tells (.deliver message) := by
  rw [Text.Line.tells_iff, deliveredMessage?]
  split <;> simp_all

theorem mem_sentSeqs (seq : Nat) : seq ∈ log.sentSeqs ↔ log.Sends seq := by
  simp only [sentSeqs, List.mem_filterMap, sentSeq?_eq_some_iff, Sends]

theorem mem_deliveredMessages (message : Message) :
    message ∈ log.deliveredMessages ↔ log.Delivers message := by
  simp only [deliveredMessages, List.mem_filterMap, deliveredMessage?_eq_some_iff, Delivers]

instance (line : Text.Line) : Decidable (∃ message, line.Tells (.deliver message)) :=
  decidable_of_iff ((deliveredMessage? line).isSome = true) <| by
    simp only [Option.isSome_iff_exists, deliveredMessage?_eq_some_iff]

theorem length_deliveredMessages : log.deliveredMessages.length =
    log.lines.countP fun line => ∃ message, line.Tells (.deliver message) := by
  rw [deliveredMessages, List.length_filterMap_eq_countP]
  refine List.countP_congr fun line _ => ?_
  simp only [Option.isSome_iff_exists, deliveredMessage?_eq_some_iff, decide_eq_true_eq]

theorem nodup_deliveredMessages_iff :
    log.deliveredMessages.Nodup ↔ log.lines.Pairwise fun line later =>
      ∀ message, line.Tells (.deliver message) → ¬ later.Tells (.deliver message) := by
  rw [deliveredMessages, List.nodup_iff_pairwise_ne, List.pairwise_filterMap]
  refine List.Pairwise.iff fun line later => forall_congr' fun message => ?_
  simp only [deliveredMessage?_eq_some_iff]
  refine imp_congr_right fun _ => ⟨fun apart again => apart message again rfl, ?_⟩
  rintro alone other again rfl
  exact alone again

def sendingFault? (line : Text.Line) : Option Fault :=
  match sentSeq? line with
  | some _ => none
  | none => some (.notABroadcast (log.place line) line.span)

def receivingFault? (past : List Text.Line) (line : Text.Line) : Option Fault :=
  match deliveredMessage? line with
  | some message =>
    if message ∈ past.filterMap deliveredMessage? then
      some (.repeatedDelivery (log.place line) message)
    else none
  | none => some (.notADelivery (log.place line) line.span)

theorem ofList_append_singleton (seqs : List Nat) (last : Nat) :
    Std.ExtTreeSet.ofList (seqs ++ [last]) = (Std.ExtTreeSet.ofList seqs).insert last := by
  apply Std.ExtTreeSet.ext_mem
  intro seq
  rw [Std.ExtTreeSet.mem_insert, Std.compare_eq_iff_eq, Std.ExtTreeSet.mem_ofList,
    Std.ExtTreeSet.mem_ofList, List.contains_iff_mem, List.contains_iff_mem, List.mem_append,
    List.mem_singleton, or_comm, eq_comm]

theorem readSent_eq_settle :
    log.readSent = settle (log.lines.findSome? log.sendingFault?) (.ofList log.sentSeqs) := by
  rw [← firstError_const]
  refine foldlM_eq_settle _ (fun past => Std.ExtTreeSet.ofList (past.filterMap sentSeq?)) _ ?_
    log.lines
  intro past line
  rw [List.filterMap_append, sendingFault?]
  split
  next seq read =>
    have kept : sentSeq? line = some seq := by rw [sentSeq?, read]
    simp [kept, settle, ofList_append_singleton]
  next other =>
    have dropped : sentSeq? line = none := by
      simpa [Option.eq_none_iff_forall_ne_some, sentSeq?_eq_some_iff,
        Text.Line.tells_iff] using other
    simp [dropped, settle]

theorem readDelivered_eq_settle :
    log.readDelivered =
      settle (firstError log.receivingFault? log.lines) (.ofMessages log.deliveredMessages) := by
  refine foldlM_eq_settle _ (fun past => MessageSets.ofMessages (past.filterMap deliveredMessage?))
    _ ?_ log.lines
  intro past line
  rw [List.filterMap_append, receivingFault?]
  split
  next message read =>
    have kept : deliveredMessage? line = some message := by rw [deliveredMessage?, read]
    simp only [kept, MessageSets.contains_ofMessages, List.filterMap_cons_some kept,
      List.filterMap_nil, MessageSets.ofMessages_append_singleton]
    split <;> rfl
  next other =>
    have dropped : deliveredMessage? line = none := by
      simpa [Option.eq_none_iff_forall_ne_some, deliveredMessage?_eq_some_iff,
        Text.Line.tells_iff] using other
    simp [dropped, settle]

theorem sendsOnly_iff : log.SendsOnly ↔ log.lines.findSome? log.sendingFault? = none := by
  rw [List.findSome?_eq_none_iff, SendsOnly]
  refine forall₂_congr fun line _ => ?_
  simp only [← sentSeq?_eq_some_iff, sendingFault?]
  cases sentSeq? line <;> simp

instance : Decidable log.SendsOnly :=
  decidable_of_iff' _ log.sendsOnly_iff

theorem receivingFault?_eq_none_iff (past : List Text.Line) (line : Text.Line) :
    log.receivingFault? past line = none ↔
      ∃ message, deliveredMessage? line = some message ∧
        message ∉ past.filterMap deliveredMessage? := by
  unfold receivingFault?
  cases deliveredMessage? line <;> simp

theorem deliversOnce_iff :
    log.DeliversOnce ↔ firstError log.receivingFault? log.lines = none := by
  rw [firstError_eq_none_iff_nodup log.receivingFault? deliveredMessage?
    log.receivingFault?_eq_none_iff, ← deliveredMessages, nodup_deliveredMessages_iff]
  simp only [Option.isSome_iff_exists, deliveredMessage?_eq_some_iff]
  exact ⟨fun once => ⟨once.delivery, once.once⟩, fun once => ⟨once.1, once.2⟩⟩

instance : Decidable log.DeliversOnce :=
  decidable_of_iff' _ log.deliversOnce_iff

theorem readSent_eq_ok_iff (sent : Std.ExtTreeSet Nat) :
    log.readSent = .ok sent ↔ log.SendsOnly ∧ .ofList log.sentSeqs = sent := by
  rw [readSent_eq_settle, settle_eq_ok_iff, sendsOnly_iff]

theorem readDelivered_eq_ok_iff (delivered : MessageSets) :
    log.readDelivered = .ok delivered ↔
      log.DeliversOnce ∧ .ofMessages log.deliveredMessages = delivered := by
  rw [readDelivered_eq_settle, settle_eq_ok_iff, deliversOnce_iff]

theorem DeliversOnce.length_deliveredMessages {log : LogFile} (once : log.DeliversOnce) :
    log.deliveredMessages.length = log.lines.length := by
  apply List.filterMap_length_eq_length.2
  intro line member
  obtain ⟨message, tells⟩ := once.delivery line member
  rw [(deliveredMessage?_eq_some_iff line message).2 tells]
  rfl

theorem filterMap_lines {β : Type} {entries : List LogEntry} (parsed : log.parse = .ok entries)
    {ofLine : Text.Line → Option β} {ofEntry : LogEntry → Option β}
    (same : ∀ line entry, Event.read? line.text = some entry.event → ofLine line = ofEntry entry) :
    log.lines.filterMap ofLine = entries.filterMap ofEntry := by
  rw [parse, mapM_eq_ok_iff] at parsed
  generalize log.lines = lines at parsed ⊢
  induction parsed with
  | nil => rfl
  | @cons line entry _ _ head _ ih =>
    rw [List.filterMap_cons, List.filterMap_cons,
      same line entry ((log.readLine_eq_ok_iff line entry).1 head).2, ih]

variable {log} {entries : List LogEntry}

theorem sentSeqs_eq_broadcasts (parsed : log.parse = .ok entries) :
    log.sentSeqs = History.broadcasts entries := by
  refine log.filterMap_lines parsed fun line entry read => ?_
  rw [sentSeq?, read]
  cases entry.event <;> rfl

theorem deliveredMessages_eq_deliveries (parsed : log.parse = .ok entries) :
    log.deliveredMessages = History.deliveries entries := by
  refine log.filterMap_lines parsed fun line entry read => ?_
  rw [deliveredMessage?, read]
  cases entry.event <;> rfl

end LogFile

namespace Links

theorem checkSent_eq_ok_iff (delivered sent : MessageSets) (result : Unit) :
    checkSent delivered sent = .ok result ↔
      ∀ message, delivered.contains message = true → sent.contains message = true := by
  unfold checkSent
  cases found : delivered.messages.find? (!sent.contains ·) with
  | some message =>
    have least := MessageSets.find?_messages_eq_some found
    simp only [reduceCtorEq, false_iff]
    intro all
    simpa [all message least.holds.1] using least.holds.2
  | none => simpa [MessageSets.mem_messages] using found

theorem checkSent_of_unsent (delivered sent : MessageSets)
    (unsent : ¬ ∀ message, delivered.contains message = true → sent.contains message = true) :
    ∃ message, Message.Least (fun other =>
        delivered.contains other = true ∧ ¬ sent.contains other = true) message ∧
      checkSent delivered sent = .error (.neverSent message) := by
  rw [← checkSent_eq_ok_iff delivered sent ()] at unsent
  unfold checkSent at unsent ⊢
  cases found : delivered.messages.find? (!sent.contains ·) with
  | some message =>
    have least := MessageSets.find?_messages_eq_some found
    simp only [Bool.not_eq_true', ← Bool.not_eq_true] at least
    exact ⟨message, least, rfl⟩
  | none =>
    rw [found] at unsent
    exact absurd rfl unsent

end Links

end BroadcastAudit
