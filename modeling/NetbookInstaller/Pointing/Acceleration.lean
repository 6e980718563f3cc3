import Mathlib.Data.List.Basic
import Mathlib.Data.Nat.Notation

/-! The curve by which a pointer is accelerated: how it is mixed from the two curves of a table
that are nearest to the acceleration that the user wants, and cut into segments. -/
namespace Pointing

/-- The operations on fixed-point numbers, with 16 bits behind the point. -/
structure IOFixed where
  multiply : Int32 → Int32 → Int32
  divide : Int32 → Int32 → Int32

structure CursorDeviceSegment where
  devUnits : Int32
  slope : Int32
  intercept : Int32
  deriving DecidableEq

def MAX_DEVICE_THRESHOLD : Int32 := 0x7fffffff
def FRAME_RATE : Int32 := (67 : Int32) <<< 16
def SCREEN_RESOLUTION : Int32 := (96 : Int32) <<< 16

/-- The bytes of a table, and what lies behind them in memory. -/
abbrev Table := ℕ → UInt8

def readBigInt32 (table : Table) (i : ℕ) : Int32 :=
  ((table i).toUInt32 <<< 24 ||| (table (i + 1)).toUInt32 <<< 16 |||
    (table (i + 2)).toUInt32 <<< 8 ||| (table (i + 3)).toUInt32).toInt32

def readBigInt16 (table : Table) (i : ℕ) : UInt16 :=
  (table i).toUInt16 <<< 8 ||| (table (i + 1)).toUInt16

variable (fixed : IOFixed)

/-- A point between two lines, nearer to the curve with the higher acceleration as `scale`
grows. -/
def interpolate (x1 y1 x2 y2 x3 y3 scale : Int32) (lower : Bool) : Int32 :=
  let slope := if x2 = x1 then 0 else fixed.divide (y2 - y1) (x2 - x1)
  let intercept := y1 - fixed.multiply slope x1
  let resultY := intercept + fixed.multiply slope x3
  if lower then y3 - fixed.multiply scale (y3 - resultY)
  else resultY + fixed.multiply scale (y3 - resultY)

/-- A curve of a table: where its points lie. -/
structure Curve where
  points : ℕ
  accl : Int32
  count : ℕ

/-- The curves on both sides of an acceleration; above the highest one it is raised by `scale`. -/
structure Bracket where
  low : Option Curve
  high : Curve
  scale : Int32

/-- The search for the curves; `count` is the number of curves that follow. -/
def findCurves (table : Table) (desired : Int32) :
    (count highTable : ℕ) → (low : Option Curve) → Bracket
  | count, highTable, low =>
    let high : Curve :=
      { points := highTable + 6
        accl := readBigInt32 table highTable
        count := (readBigInt16 table (highTable + 4)).toNat }
    if desired ≤ high.accl then ⟨low, high, 0x10000⟩
    else
      match count with
      | 0 => ⟨none, high, if high.accl = 0 then 0 else fixed.divide desired high.accl⟩
      | count + 1 => findCurves table desired count (high.points + 8 * high.count) (some high)

/-- The table's default is moved to one half. -/
def normalize (desired scale : Int32) : Int32 :=
  if desired > 0x8000 then
    (fixed.multiply (desired - 0x8000) (0x10000 - scale) <<< 1) + scale
  else fixed.multiply desired scale <<< 1

def bracket (table : Table) (desired : Int32) : Bracket :=
  -- a count of 0 wraps
  let count : UInt32 := (readBigInt16 table 8).toUInt32 - 1
  findCurves fixed table (normalize fixed desired (readBigInt32 table 0)) count.toNat 10 none

/-- What is left of two curves, and the last point of the mixed curve. -/
structure Mix where
  lowTable : ℕ
  highTable : ℕ
  lowPoints : ℕ
  highPoints : ℕ
  lowerX : Int32
  lowerY : Int32
  upperX : Int32
  upperY : Int32
  x1 : Int32
  y1 : Int32
  prevX1 : Int32
  prevY1 : Int32
  scaledX1 : Int32
  scaledY1 : Int32

namespace Mix

/-- The next point is one of the lower curve. -/
def lower (m : Mix) : Bool := m.lowPoints ≠ 0 && (m.highPoints = 0 || m.lowerX ≤ m.upperX)

/-- A point is taken from a curve, and the one after it is read. -/
def consume (table : Table) (m : Mix) : Mix :=
  if m.lower then
    if m.lowPoints - 1 = 0 then { m with lowPoints := 0 }
    else
      { m with
        lowPoints := m.lowPoints - 1
        lowTable := m.lowTable + 8
        lowerX := readBigInt32 table m.lowTable
        lowerY := readBigInt32 table (m.lowTable + 4) }
  else if m.highPoints - 1 = 0 then { m with highPoints := 0 }
  else
    { m with
      highPoints := m.highPoints - 1
      highTable := m.highTable + 8
      upperX := readBigInt32 table m.highTable
      upperY := readBigInt32 table (m.highTable + 4) }

def points (m : Mix) : ℕ := m.lowPoints + m.highPoints

/-- The line that the next points are compared with. -/
def continueFrom (m : Mix) (x3 y3 : Int32) : Mix :=
  if m.lowPoints ≠ 0 ∧ m.highPoints ≠ 0 then
    if m.lowerX > m.upperX then { m with prevX1 := m.x1, prevY1 := m.y1 }
    else { m with prevX1 := m.x1, prevY1 := m.y1, x1 := x3, y1 := y3 }
  else { m with x1 := m.prevX1, y1 := m.prevY1, prevX1 := m.x1, prevY1 := m.y1 }

/-- The segment up to the next point. -/
def next (table : Table) (devScale crsrScale scale : Int32) (m : Mix) :
    CursorDeviceSegment × Mix :=
  let x2 := if m.lower then m.upperX else m.lowerX
  let y2 := if m.lower then m.upperY else m.lowerY
  let x3 := if m.lower then m.lowerX else m.upperX
  let y3 := if m.lower then m.lowerY else m.upperY
  let t := m.consume table
  let scaledX2 := fixed.multiply devScale x3
  let scaledY2 :=
    fixed.multiply crsrScale (interpolate fixed m.x1 m.y1 x2 y2 x3 y3 scale m.lower)
  let slope :=
    if scaledX2 = m.scaledX1 then 0
    else fixed.divide (scaledY2 - m.scaledY1) (scaledX2 - m.scaledX1)
  ({ devUnits := if t.points = 0 then MAX_DEVICE_THRESHOLD else scaledX2
     slope
     intercept := scaledY2 - fixed.multiply slope scaledX2 },
    { t.continueFrom x3 y3 with scaledX1 := scaledX2, scaledY1 := scaledY2 })

/-- The segments of the mixed curve, one for each point that is left. -/
def segments (table : Table) (devScale crsrScale scale : Int32) :
    ℕ → Mix → List CursorDeviceSegment
  | 0, m => [(m.next fixed table devScale crsrScale scale).1]
  | n + 1, m =>
    let (segment, t) := m.next fixed table devScale crsrScale scale
    if t.points = 0 then [segment] else segment :: t.segments table devScale crsrScale scale n

end Mix

/-- What `SetupAcceleration` does to the segments: nothing, it frees them, or it allocates
`segCount` of them and writes some. -/
inductive Setup where
  | kept
  | disabled
  | allocated (segCount : ℕ) (segments : List CursorDeviceSegment)
  deriving DecidableEq

/-- The curves are mixed from their first points on. -/
def Bracket.mix (table : Table) (b : Bracket) : Mix :=
  let low := b.low.getD { b.high with count := 0 }
  { lowTable := low.points + 8
    highTable := b.high.points + 8
    lowPoints := low.count
    highPoints := b.high.count
    lowerX := readBigInt32 table low.points
    lowerY := readBigInt32 table (low.points + 4)
    upperX := readBigInt32 table b.high.points
    upperY := readBigInt32 table (b.high.points + 4)
    x1 := 0
    y1 := 0
    prevX1 := 0
    prevY1 := 0
    scaledX1 := 0
    scaledY1 := 0 }

/-- How far the acceleration is between those of the two curves. -/
def Bracket.scaleBetween (b : Bracket) (desired : Int32) : Int32 :=
  match b.low with
  | none => b.scale
  | some low =>
    if b.high.accl = low.accl then 0
    else fixed.divide (desired - low.accl) (b.high.accl - low.accl)

def SetupAcceleration (data : Option Table) (desired devScale crsrScale : Int32) : Setup :=
  match data with
  | none => .kept
  | some table =>
    if devScale = 0 ∨ crsrScale = 0 then .kept
    else if desired < 0 then .disabled
    else
      let b := bracket fixed table desired
      let scale := b.scaleBetween fixed (normalize fixed desired (readBigInt32 table 0))
      let m := b.mix table
      .allocated (2 * max m.lowPoints m.highPoints)
        (m.segments fixed table devScale crsrScale scale m.points)

section Segments

variable {fixed} {table : Table} {devScale crsrScale scale : Int32} {m : Mix}

theorem Mix.points_consume (h : m.points ≠ 0) : (m.consume table).points + 1 = m.points := by
  simp only [points] at h ⊢
  rw [consume]
  by_cases hlower : m.lower = true
  · have hlow : m.lowPoints ≠ 0 := by
      simp only [lower, Bool.and_eq_true, decide_eq_true_eq] at hlower
      exact hlower.1
    rw [if_pos hlower]
    split
    · show 0 + m.highPoints + 1 = m.lowPoints + m.highPoints
      omega
    · show m.lowPoints - 1 + m.highPoints + 1 = m.lowPoints + m.highPoints
      omega
  · have hhigh : m.highPoints ≠ 0 := by
      intro hzero
      simp [lower, hzero] at hlower
      omega
    rw [if_neg hlower]
    split
    · show m.lowPoints + 0 + 1 = m.lowPoints + m.highPoints
      omega
    · show m.lowPoints + (m.highPoints - 1) + 1 = m.lowPoints + m.highPoints
      omega

@[simp] theorem Mix.points_continueFrom (x3 y3 : Int32) :
    (m.continueFrom x3 y3).points = m.points := by
  rw [continueFrom]
  split
  · split <;> rfl
  · rfl

theorem Mix.points_next :
    (m.next fixed table devScale crsrScale scale).2.points = (m.consume table).points :=
  points_continueFrom _ _

theorem Mix.next_devUnits (h : (m.consume table).points = 0) :
    (m.next fixed table devScale crsrScale scale).1.devUnits = MAX_DEVICE_THRESHOLD :=
  if_pos h

/-- The segments end with one that no movement exceeds. -/
theorem Mix.segments_last {n : ℕ} (hn : m.points ≤ n) :
    ∃ segment ∈ m.segments fixed table devScale crsrScale scale n,
      segment.devUnits = MAX_DEVICE_THRESHOLD := by
  induction n generalizing m with
  | zero =>
    have hnone : (m.consume table).points = 0 := by
      simp only [points, Nat.le_zero, Nat.add_eq_zero_iff] at hn ⊢
      simp [consume, lower, hn]
    exact ⟨_, List.mem_singleton_self _, next_devUnits hnone⟩
  | succ n ih =>
    rw [segments]
    dsimp only
    rw [points_next]
    by_cases hzero : (m.consume table).points = 0
    · rw [if_pos hzero]
      exact ⟨_, List.mem_singleton_self _, next_devUnits hzero⟩
    · rw [if_neg hzero]
      have hrest : (m.next fixed table devScale crsrScale scale).2.points ≤ n := by
        rw [points_next]
        by_cases hpoints : m.points = 0
        · simp only [points, Nat.add_eq_zero_iff] at hpoints
          simp [points, consume, lower, hpoints]
        · have := @points_consume table _ hpoints
          omega
      obtain ⟨segment, hmem, hlast⟩ := ih hrest
      exact ⟨segment, List.mem_cons_of_mem _ hmem, hlast⟩

theorem Mix.length_segments {n : ℕ} (hn : m.points = n) :
    (m.segments fixed table devScale crsrScale scale n).length = max 1 n := by
  induction n generalizing m with
  | zero => rfl
  | succ n ih =>
    have hconsume : (m.consume table).points = n := by
      have := @points_consume table m (by omega)
      omega
    rw [segments]
    dsimp only
    rw [points_next, hconsume]
    split
    next hzero => rw [hzero, List.length_singleton, Nat.zero_add, Nat.max_self]
    next hne =>
      rw [List.length_cons, ih (points_next.trans hconsume)]
      omega

/-- One of the two curves has a point. -/
def Bracket.HasPoints (b : Bracket) : Prop := b.high.count ≠ 0 ∨ ∃ low ∈ b.low, low.count ≠ 0

theorem Bracket.mix_points_ne_zero_iff (table : Table) (b : Bracket) :
    (b.mix table).points ≠ 0 ↔ b.HasPoints := by
  obtain ⟨- | low, high, scale⟩ := b
  · simp [mix, Mix.points, HasPoints]
  · simp only [mix, Mix.points, HasPoints, Option.getD_some, Option.mem_def, Option.some.injEq,
      exists_eq_left']
    omega

/-- The segments end with one for every movement, and there is room for them unless both curves
are empty. -/
theorem setupAcceleration_allocated {desired : Int32} {segCount : ℕ}
    {segments : List CursorDeviceSegment}
    (h : SetupAcceleration fixed (some table) desired devScale crsrScale =
      .allocated segCount segments) :
    (∃ segment ∈ segments, segment.devUnits = MAX_DEVICE_THRESHOLD) ∧
      (segments.length ≤ segCount ↔ (bracket fixed table desired).HasPoints) := by
  rw [SetupAcceleration] at h
  split_ifs at h
  obtain ⟨rfl, rfl⟩ := Setup.allocated.inj h
  refine ⟨Mix.segments_last (Nat.le_refl _), ?_⟩
  rw [Mix.length_segments rfl, ← Bracket.mix_points_ne_zero_iff table, Mix.points]
  omega

/-- The table that is used where a driver has none. -/
def accl : List UInt8 :=
  [0x00, 0x00, 0x80, 0x00,
    0x40, 0x32, 0x30, 0x30, 0x00, 0x02, 0x00, 0x00,
    0x00, 0x00, 0x00, 0x01, 0x00, 0x01, 0x00, 0x00,
    0x00, 0x01, 0x00, 0x00, 0x00, 0x01, 0x00, 0x00,
    0x00, 0x09, 0x00, 0x00, 0x71, 0x3B, 0x00, 0x00,
    0x60, 0x00, 0x00, 0x04, 0x4E, 0xC5, 0x00, 0x10,
    0x80, 0x00, 0x00, 0x0C, 0x00, 0x00, 0x00, 0x5F,
    0x00, 0x00, 0x00, 0x16, 0xEC, 0x4F, 0x00, 0x8B,
    0x00, 0x00, 0x00, 0x1D, 0x3B, 0x14, 0x00, 0x94,
    0x80, 0x00, 0x00, 0x22, 0x76, 0x27, 0x00, 0x96,
    0x00, 0x00, 0x00, 0x24, 0x62, 0x76, 0x00, 0x96,
    0x00, 0x00, 0x00, 0x26, 0x00, 0x00, 0x00, 0x96,
    0x00, 0x00, 0x00, 0x28, 0x00, 0x00, 0x00, 0x96,
    0x00, 0x00]

def defaultTable : Table := fun i => accl.getD i 0

/-- The default table has points for every acceleration. -/
theorem defaultTable_hasPoints (desired : Int32) :
    (bracket fixed defaultTable desired).HasPoints := by
  have hcount : ((readBigInt16 defaultTable 8).toUInt32 - 1).toNat = 1 := by decide
  have hfirst : (readBigInt16 defaultTable 14).toNat = 1 := by decide
  rw [bracket, hcount, findCurves]
  dsimp only
  split
  · exact .inl (by simp [hfirst])
  · rw [hfirst, findCurves]
    dsimp only
    have hsecond : (readBigInt16 defaultTable 28).toNat = 9 := by decide
    split
    · exact .inl (by simp [hsecond])
    · exact .inl (by simp [hsecond])

end Segments

end Pointing
