import MathProgram.Json.Emitter
import MathProgram.Proofs.Engine.Files

/-!
# Documents that do not fit

A writer of limited room takes a document piece by piece. `emits_emit` says that writing a document
by recursion on its tree (`Json.emit`) is the same as writing its pieces in their order. Pieces
written one after another are taken as if they were written at once (`putAll_eq_put`), so a writer
takes as much of the text of a document as it has room for, and the document counts as written only
if that is all of it (`emission_limited`).
-/

namespace MathProgram

open Utf8 (bytes)

namespace Sink

/-- No piece fits always, and changes nothing. -/
theorem put_nil (s : Sink) : s.put [] = (true, s) := by
  simp [put]

/-- Bytes that are written after others which fit are taken as if both were written at once. -/
theorem put_append {s : Sink} {bs : List UInt8} (cs : List UInt8) (h : bs.length ≤ s.room) :
    s.put (bs ++ cs) = (s.put bs).2.put cs := by
  have hsum : bs.length + cs.length ≤ s.room ↔ cs.length ≤ s.room - bs.length := by omega
  simp only [put, List.length_append, List.take_append, List.take_of_length_le h,
    List.append_assoc, Nat.sub_add_eq, hsum]

/-- What is written after bytes that did not fit is not taken. -/
theorem put_append_of_lt {s : Sink} {bs : List UInt8} (cs : List UInt8) (h : s.room < bs.length) :
    s.put (bs ++ cs) = s.put bs := by
  have hsum : ¬ bs.length + cs.length ≤ s.room := by omega
  have hroom : s.room - (bs.length + cs.length) = s.room - bs.length := by omega
  simp only [put, List.length_append, List.take_append_of_le_length h.le, hroom, hsum, h.not_ge]

/-- Pieces written one after another are taken as if they were written at once. -/
theorem putAll_eq_put (s : Sink) (ps : List String) : s.putAll ps = s.put (ps.flatMap bytes) := by
  induction ps generalizing s with
  | nil => exact (put_nil s).symm
  | cons p ps ih =>
    rw [List.flatMap_cons, putAll]
    by_cases h : (bytes p).length ≤ s.room
    · have hput : s.put (bytes p) = (true, (s.put (bytes p)).2) :=
        Prod.ext (decide_eq_true h) rfl
      rw [put_append _ h, hput]
      exact ih _
    · have hput : s.put (bytes p) = (false, (s.put (bytes p)).2) :=
        Prod.ext (decide_eq_false h) rfl
      rw [put_append_of_lt _ (Nat.lt_of_not_le h), hput]

end Sink

namespace Json

/-! ## Writing in pieces -/

/-- What is written are these pieces, in this order, up to the first that does not fit. -/
def Emits (act : Emission) (ps : List String) : Prop := ∀ s, act.run s = outcome (s.putAll ps)

namespace Emits

variable {act next : Emission} {ps qs : List String}

/-- Nothing is written. -/
theorem pure : Emits (pure ()) [] := fun _ => rfl

/-- One piece is written. -/
theorem write (p : String) : Emits (write p) [p] := fun s => by
  rw [Sink.putAll_eq_put, List.flatMap_singleton]
  rfl

/-- What is written first and what is written then; nothing, where the first fails. -/
theorem bind (hact : Emits act ps) (hnext : Emits next qs) :
    Emits (act >>= fun _ => next) (ps ++ qs) := fun s => by
  have hrun : (act >>= fun _ => next).run s =
      ((act.run s).1.elim (none, (act.run s).2) fun _ => next.run (act.run s).2) := by
    rw [OptionT.run_bind]
    show (Option.elim (act.run s).1 (Pure.pure none) fun _ => next.run) (act.run s).2 = _
    cases (act.run s).1 <;> rfl
  rw [hrun, hact s, Sink.putAll_eq_put, Sink.putAll_eq_put, List.flatMap_append]
  by_cases h : (ps.flatMap bytes).length ≤ s.room
  · have hput : s.put (ps.flatMap bytes) = (true, (s.put (ps.flatMap bytes)).2) :=
      Prod.ext (decide_eq_true h) rfl
    rw [Sink.put_append _ h, ← Sink.putAll_eq_put _ qs, ← hnext, hput]
    rfl
  · have hput : s.put (ps.flatMap bytes) = (false, (s.put (ps.flatMap bytes)).2) :=
      Prod.ext (decide_eq_false h) rfl
    rw [Sink.put_append_of_lt _ (Nat.lt_of_not_le h), hput]
    rfl

/-- A piece is written for each item of a list. -/
theorem forM {α : Type} {f : α → Emission} {p : α → String} (hf : ∀ a, Emits (f a) [p a])
    (as : List α) : Emits (as.forM f) (as.map p) := by
  induction as with
  | nil => exact pure
  | cons a as ih => exact (hf a).bind ih

/-- A separator is written before all items but the first. -/
theorem separator (first : Bool) (p : String) :
    Emits (separate first p) (if first then [] else [p]) := by
  cases first
  · exact write p
  · exact pure

end Emits

/-- A quoted text is written in its pieces. -/
theorem emits_emitText (s : String) : Emits (emitText s) (quotedPieces s) :=
  (Emits.write _).bind ((Emits.forM (fun _ => .write _) _).bind (.write _))

mutual

/-- A document is written in its pieces. -/
theorem emits_emit (v : Json) : Emits v.emit v.pieces := by
  match v with
  | null | bool _ | int _ | num _ =>
    rw [emit, pieces]
    exact .write _
  | text s =>
    rw [emit, pieces]
    exact emits_emitText s
  | arr items =>
    rw [emit, pieces]
    exact (Emits.write _).bind ((emits_emitItems true items).bind (.write _))
  | obj members =>
    rw [emit, pieces]
    exact (Emits.write _).bind ((emits_emitMembers true members).bind (.write _))

/-- Items are written in their pieces. -/
theorem emits_emitItems (first : Bool) (vs : List Json) :
    Emits (emitItems first vs) (itemPieces first vs) := by
  match vs with
  | [] =>
    rw [emitItems, itemPieces]
    exact .pure
  | v :: vs =>
    rw [emitItems, itemPieces, List.append_assoc]
    exact (Emits.separator first ",").bind ((emits_emit v).bind (emits_emitItems false vs))

/-- Members are written in their pieces. -/
theorem emits_emitMembers (first : Bool) (ms : List (String × Json)) :
    Emits (emitMembers first ms) (memberPieces first ms) := by
  match ms with
  | [] =>
    rw [emitMembers, memberPieces]
    exact .pure
  | (k, v) :: ms =>
    rw [emitMembers, memberPieces, List.append_assoc, List.append_assoc, List.append_assoc]
    exact (Emits.separator first ",\n").bind ((emits_emitText k).bind
      ((Emits.write ":").bind ((emits_emit v).bind (emits_emitMembers false ms))))

end

/-- The bytes of the pieces are those of the text. -/
theorem flatMap_bytes_pieces (v : Json) : v.pieces.flatMap bytes = bytes v.render :=
  (Utf8.bytes_join _).symm

/-- Writing a document has the outcome of writing its text at once. -/
theorem run_emit (v : Json) (s : Sink) : v.emit.run s = outcome (s.put (bytes v.render)) := by
  rw [emits_emit, Sink.putAll_eq_put, flatMap_bytes_pieces]

/-- A document counts as written only if all of it was taken. A writer with room for `room` bytes
takes the first `room` bytes of the text of a document, or all of them if there are no more, and the
writing succeeds if and only if there are no more. So saving a task file on a device that is full
fails, whatever the store and the sections chosen, and changes nothing. -/
theorem emission_limited {σ : Type} (v : Json) (room : ℕ) :
    let text := bytes v.render
    (v.emit.run ⟨room, []⟩).2.taken = text.take (min room text.length) ∧
      ((v.emit.run ⟨room, []⟩).1 = some () ↔ text.length ≤ room) ∧
      v.printInto room = (decide (text.length ≤ room), text.take (min room text.length)) ∧
      ∀ (parts : Sections) (e : Engine) (h : Host σ),
        (Engine.saveTask "/dev/full" parts).run e h =
          ((ResultCode.fileWriteError.code, e), h) := by
  intro text
  have htake : text.take room = text.take (min room text.length) := by
    rw [← List.take_take, List.take_length]
  rw [run_emit, ← htake]
  refine ⟨rfl, ?_, ?_, fun parts e h => ?_⟩
  · simp [outcome, Sink.put, text]
  · rw [printInto, Sink.putAll_eq_put, flatMap_bytes_pieces]
    rfl
  · -- A document is never empty, so the device takes less than all of it.
    have hplace : h.disk.place "/dev/full" = .full := by
      have hname : ("/dev/full".contains '\x00' || decide (maxNameBytes < "/dev/full".utf8ByteSize))
          = false := by cbv
      rw [Disk.place, hname]
      rfl
    have hwritable : h.disk.writable? "/dev/full" = none := by
      rw [Disk.writable?, hplace]
    have hempty : (bytes (TaskFile.document e.store parts).render).isEmpty = false :=
      List.isEmpty_eq_false_iff.2 (Engine.bytes_document_ne_nil e.store parts)
    rw [Engine.run_saveTask, Disk.write, hwritable, hempty, Bool.and_false]
    rfl

end Json

end MathProgram
