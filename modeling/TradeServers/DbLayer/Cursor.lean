import TradeServers.DbLayer.RecordSet
import TradeServers.Library.Execution

/-!
# The cursor of a record set

`CRecordSet` has a position that `MoveFirst`, `MoveLast`, `MoveNext` and `Move` change and that
`GetCurrentFieldValue` reads a row at. It is an `unsigned long`, `Move` computes its target in an
`int`, and `IsEof` compares it with the number of rows. `cursor_right_of_fits` says of which moves
the cursor stays on a row or at the end.
-/

set_option autoImplicit false
set_option relaxedAutoImplicit false

namespace TradeServers.DbLayer

open Execution

namespace CRecordSet

/-- `CRecordSet::MoveFirst`. -/
def moveFirst (recordSet : CRecordSet) : CRecordSet := { recordSet with pos := 0 }

/-- `CRecordSet::MoveLast`. -/
def moveLast (recordSet : CRecordSet) : CRecordSet :=
  { recordSet with pos := toSize (recordSet.records.length - 1) }

/-- `CRecordSet::MoveNext`. -/
def moveNext (recordSet : CRecordSet) : CRecordSet :=
  { recordSet with pos := toSize (recordSet.pos + 1) }

/-- `CRecordSet::Move`. The sum is an `unsigned long`, which is cut to an `int`. -/
def move (recordSet : CRecordSet) (length : ℤ) : CRecordSet :=
  let l := toInt32 (toSize (recordSet.pos + length))
  if l < 0 then recordSet.moveFirst
  else if toInt32 recordSet.records.length ≤ l then recordSet.moveLast
  else { recordSet with pos := toSize l }

/-- `CRecordSet::IsEof`. -/
def isEof (recordSet : CRecordSet) : Bool := recordSet.pos = recordSet.records.length

/-- The record at the cursor. There is none outside the rows. -/
def current (recordSet : CRecordSet) : Option Row := atIndex recordSet.records recordSet.pos

/-- `CRecordSet::GetCurrentFieldValue` by index. -/
def getCurrentFieldValue (recordSet : CRecordSet) (num : ℤ) : Option Bytes :=
  recordSet.current.bind fun record ↦ atIndex record num

/-- The set is at its end exactly when the cursor designates no row, so that before the end a row
is read. -/
structure EndTold (recordSet : CRecordSet) : Prop where
  isEof_iff : recordSet.isEof = true ↔ recordSet.current = none
  value : recordSet.isEof = false → ∃ record ∈ recordSet.records,
    ∀ num, recordSet.getCurrentFieldValue num = atIndex record num

end CRecordSet

/-- The calls that move a cursor. -/
inductive CursorCall
  | moveFirst
  | moveLast
  | moveNext
  | move (length : ℤ)

/-- The effect of a call. -/
def cursorStep (recordSet : CRecordSet) : CursorCall → Except Empty CRecordSet
  | .moveFirst => .ok recordSet.moveFirst
  | .moveLast => .ok recordSet.moveLast
  | .moveNext => .ok recordSet.moveNext
  | .move length => .ok (recordSet.move length)

/-- The row that `Move` is meant to reach: the old position and `length`, kept within the rows. -/
def CursorCall.Clamped (recordSet next : CRecordSet) : CursorCall → Prop
  | .move length => 0 < recordSet.records.length →
      (next.pos : ℤ) =
        max 0 (min (recordSet.pos + length) ((recordSet.records.length : ℤ) - 1))
  | _ => True

/-- What is expected of a call: `IsEof` tells whether the cursor has left the rows, and `Move`
reaches its row. -/
def CursorCall.Right (recordSet : CRecordSet) (call : CursorCall) : Prop :=
  ∀ next, cursorStep recordSet call = .ok next →
    next.EndTold ∧ call.Clamped recordSet next

/-- The calls that the arithmetic of the cursor is made for. An empty set has no last row, the end
of a set has no next one, and `Move` computes in an `int`; it looks at the number of rows unless it
goes before the first. -/
def CursorCall.Fits (recordSet : CRecordSet) : CursorCall → Prop
  | .moveFirst => True
  | .moveLast => 0 < recordSet.records.length
  | .moveNext => recordSet.isEof = false
  | .move length =>
    -2 ^ 31 ≤ (recordSet.pos : ℤ) + length ∧ (recordSet.pos : ℤ) + length < 2 ^ 31 ∧
      (0 ≤ (recordSet.pos : ℤ) + length →
        0 < recordSet.records.length ∧ recordSet.records.length < 2 ^ 31)

instance (recordSet : CRecordSet) (call : CursorCall) : Decidable (call.Fits recordSet) :=
  match call with
  | .moveFirst => inferInstanceAs (Decidable True)
  | .moveLast => inferInstanceAs (Decidable (0 < recordSet.records.length))
  | .moveNext => inferInstanceAs (Decidable (recordSet.isEof = false))
  | .move length => inferInstanceAs (Decidable (-2 ^ 31 ≤ (recordSet.pos : ℤ) + length ∧
      (recordSet.pos : ℤ) + length < 2 ^ 31 ∧ (0 ≤ (recordSet.pos : ℤ) + length →
        0 < recordSet.records.length ∧ recordSet.records.length < 2 ^ 31)))

namespace CRecordSet

/-! ### The cursor stays on a row or at the end -/

/-- The cursor is on a row or at the end of the rows, and there are no more rows than a vector can
hold. -/
structure InRange (recordSet : CRecordSet) : Prop where
  size : recordSet.records.length < 2 ^ 63
  pos : recordSet.pos ≤ recordSet.records.length

variable {recordSet : CRecordSet}

theorem isEof_iff : recordSet.isEof = true ↔ recordSet.pos = recordSet.records.length := by
  simp [isEof]

theorem current_eq_none_iff :
    recordSet.current = none ↔ recordSet.records.length ≤ recordSet.pos := by
  rw [current, atIndex_natCast, List.getElem?_eq_none_iff]

theorem InRange.isEof_iff_current (hrange : recordSet.InRange) :
    recordSet.isEof = true ↔ recordSet.current = none := by
  have hpos := hrange.pos
  rw [isEof_iff, current_eq_none_iff]
  omega

/-- Before the end, the values come from a row. -/
theorem InRange.endTold (hrange : recordSet.InRange) : recordSet.EndTold := by
  refine ⟨hrange.isEof_iff_current, fun heof ↦ ?_⟩
  have hsome : recordSet.current ≠ none := by
    intro hnone
    rw [hrange.isEof_iff_current.mpr hnone] at heof
    cases heof
  obtain ⟨record, hrecord⟩ := Option.ne_none_iff_exists'.mp hsome
  refine ⟨record, ?_, fun num ↦ by rw [getCurrentFieldValue, hrecord, Option.bind_some]⟩
  rw [current, atIndex_natCast] at hrecord
  exact List.mem_of_getElem? hrecord

@[simp]
theorem pos_moveFirst : recordSet.moveFirst.pos = 0 := rfl

@[simp]
theorem records_moveFirst : recordSet.moveFirst.records = recordSet.records := rfl

@[simp]
theorem records_moveLast : recordSet.moveLast.records = recordSet.records := rfl

@[simp]
theorem records_moveNext : recordSet.moveNext.records = recordSet.records := rfl

@[simp]
theorem records_move (length : ℤ) : (recordSet.move length).records = recordSet.records := by
  unfold move
  extract_lets target
  split_ifs <;> rfl

theorem InRange.moveFirst (hrange : recordSet.InRange) : recordSet.moveFirst.InRange :=
  ⟨hrange.size, Nat.zero_le _⟩

theorem pos_moveLast (hsize : recordSet.records.length < 2 ^ 63)
    (hrows : 0 < recordSet.records.length) :
    recordSet.moveLast.pos = recordSet.records.length - 1 := by
  unfold moveLast
  dsimp only
  rw [← Nat.cast_pred hrows]
  exact toSize_natCast (by omega)

theorem InRange.moveLast (hrange : recordSet.InRange) (hrows : 0 < recordSet.records.length) :
    recordSet.moveLast.InRange := by
  refine ⟨hrange.size, ?_⟩
  rw [pos_moveLast hrange.size hrows, records_moveLast]
  omega

theorem InRange.moveNext (hrange : recordSet.InRange) (heof : recordSet.isEof = false) :
    recordSet.moveNext.InRange := by
  refine ⟨hrange.size, ?_⟩
  have hne : recordSet.pos ≠ recordSet.records.length := by
    intro heq
    rw [isEof_iff.mpr heq] at heof
    cases heof
  have hsize := hrange.size
  have hpos := hrange.pos
  rw [records_moveNext]
  unfold CRecordSet.moveNext
  dsimp only
  rw [← Nat.cast_succ, toSize_natCast (by omega)]
  omega

/-- A target that is an `int` is found as it is. -/
theorem toInt32_toSize {value : ℤ} (hlow : -2 ^ 31 ≤ value) (hhigh : value < 2 ^ 31) :
    toInt32 (toSize value) = value := by
  unfold toInt32 toSize
  rw [Int.bmod_def]
  split_ifs <;> omega

theorem pos_move (hrange : recordSet.InRange) {length : ℤ}
    (hfits : (CursorCall.move length).Fits recordSet) :
    ((recordSet.move length).pos : ℤ) =
      max 0 (min (recordSet.pos + length) ((recordSet.records.length : ℤ) - 1)) := by
  obtain ⟨hlow, hhigh, hrows⟩ := hfits
  have hlast := pos_moveLast hrange.size
  unfold move
  extract_lets target
  have htarget : target = recordSet.pos + length := toInt32_toSize hlow hhigh
  clear_value target
  by_cases hneg : target < 0
  · rw [if_pos hneg, pos_moveFirst]
    omega
  · obtain ⟨hpos, hcount⟩ := hrows (by omega)
    rw [if_neg hneg, toInt32_of_lt hcount]
    split_ifs with hend
    · rw [hlast (by omega)]
      omega
    · dsimp only
      unfold toSize
      omega

theorem InRange.move (hrange : recordSet.InRange) {length : ℤ}
    (hfits : (CursorCall.move length).Fits recordSet) : (recordSet.move length).InRange := by
  refine ⟨by rw [records_move]; exact hrange.size, ?_⟩
  have hpos := pos_move hrange hfits
  rw [records_move]
  omega

/-- A call that fits keeps the cursor on a row or at the end. -/
theorem InRange.cursorStep {call : CursorCall} {next : CRecordSet} (hrange : recordSet.InRange)
    (hfits : call.Fits recordSet) (hstep : cursorStep recordSet call = .ok next) :
    next.InRange := by
  cases call with
  | moveFirst =>
    obtain rfl := Except.ok.inj hstep
    exact hrange.moveFirst
  | moveLast =>
    obtain rfl := Except.ok.inj hstep
    exact hrange.moveLast hfits
  | moveNext =>
    obtain rfl := Except.ok.inj hstep
    exact hrange.moveNext hfits
  | move length =>
    obtain rfl := Except.ok.inj hstep
    exact hrange.move hfits

theorem InRange.right {call : CursorCall} (hrange : recordSet.InRange)
    (hfits : call.Fits recordSet) : call.Right recordSet := by
  intro next hstep
  refine ⟨(hrange.cursorStep hfits hstep).endTold, ?_⟩
  cases call with
  | moveFirst => trivial
  | moveLast => trivial
  | moveNext => trivial
  | move length =>
    obtain rfl := Except.ok.inj hstep
    exact fun _ ↦ pos_move hrange hfits

end CRecordSet

/-- A new cursor that only gets calls that fit is always on a row or told to be at the end, and
`Move` reaches its row. -/
theorem cursor_right_of_fits {recordSet : CRecordSet} (hstart : recordSet.pos = 0)
    (hsize : recordSet.records.length < 2 ^ 63) {calls : List CursorCall}
    (hfits : Guarded cursorStep CursorCall.Fits recordSet calls) :
    recordSet.EndTold ∧
      Guarded cursorStep CursorCall.Right recordSet calls := by
  have hrange : recordSet.InRange := ⟨hsize, by omega⟩
  refine ⟨hrange.endTold, ?_⟩
  have hinvariant := Guarded.of_invariant
    (fun recordSet call next hrange hfits hstep ↦ hrange.cursorStep hfits hstep) hrange hfits
  exact hfits.combine (fun _ _ hfits hrange ↦ hrange.right hfits) hinvariant

/-- On two rows: to the second, beyond the rows and back. -/
theorem cursor_right_of_two_rows :
    ({ CRecordSet.new with records := [[], []] } : CRecordSet).EndTold ∧
      Guarded cursorStep CursorCall.Right { CRecordSet.new with records := [[], []] }
        [.moveNext, .move 5, .moveNext, .move (-3), .moveLast] := by
  refine cursor_right_of_fits (by rfl) (by simp) ?_
  refine ⟨by rfl, fun _ hnext ↦ ?_⟩
  obtain rfl := Except.ok.inj hnext
  refine ⟨by decide, fun _ hmove ↦ ?_⟩
  obtain rfl := Except.ok.inj hmove
  refine ⟨by decide, fun _ hend ↦ ?_⟩
  obtain rfl := Except.ok.inj hend
  refine ⟨by decide, fun _ hback ↦ ?_⟩
  obtain rfl := Except.ok.inj hback
  exact ⟨by decide, fun _ _ ↦ trivial⟩

/-- An empty set is not told to be at its end after `MoveLast`, nor is one with a row after two
calls of `MoveNext`, and `Move` by 2^32 stays on the first of two rows. -/
theorem cursor_leaves_rows :
    ¬ Guarded cursorStep CursorCall.Right CRecordSet.new [.moveLast] ∧
      ¬ Guarded cursorStep CursorCall.Right { CRecordSet.new with records := [[]] }
        [.moveNext, .moveNext] ∧
      ¬ Guarded cursorStep CursorCall.Right { CRecordSet.new with records := [[], []] }
        [.move (2 ^ 32)] := by
  refine ⟨fun hguarded ↦ ?_, fun hguarded ↦ ?_, fun hguarded ↦ ?_⟩
  · have htold := (hguarded.1 _ rfl).1.isEof_iff
    rw [CRecordSet.isEof_iff, CRecordSet.current_eq_none_iff] at htold
    revert htold
    decide
  · have htold := ((hguarded.2 _ rfl).1 _ rfl).1.isEof_iff
    rw [CRecordSet.isEof_iff, CRecordSet.current_eq_none_iff] at htold
    revert htold
    decide
  · have hmove := (hguarded.1 _ rfl).2 (by decide)
    revert hmove
    decide

end TradeServers.DbLayer
