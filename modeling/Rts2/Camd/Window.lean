import Mathlib

/-! The readout window of the camera: box, center and WINDOW requests, all of which come to one check.
Coordinates and sizes are the C integers. -/
namespace Rts2.Camd.Window

structure Rectangle where
  x : Int32
  y : Int32
  width : Int32
  height : Int32
deriving DecidableEq

def Within (start size chipStart chipSize : Int32) : Prop :=
  0 < size.toInt ∧ chipStart.toInt ≤ start.toInt ∧
    start.toInt + size.toInt ≤ chipStart.toInt + chipSize.toInt

structure Rectangle.Inside (r chip : Rectangle) : Prop where
  x : Within r.x r.width chip.x chip.width
  y : Within r.y r.height chip.y chip.height

def Beyond (start size chipStart chipSize : Int32) : Prop :=
  chipSize.toInt < (start.toInt - chipStart.toInt + size.toInt).bmod (2 ^ 32)

structure Camera where
  chipSize : Rectangle
  chipUsedReadout : Rectangle
  default_crpix : ℚ × ℚ
  wcs_crpix : Option (ℚ × ℚ)
  binningHorizontal : Int32
  binningVertical : Int32

inductive Request where
  | box (r : Rectangle)
  | full
  | center (w h : Int32)
  | setWindow (r : Rectangle)
  /-- A WINDOW that waited in the queue; it is not compared with the window in use. -/
  | queued (r : Rectangle)
  | scriptEnds

def Rectangle.fill (chip r : Rectangle) : Rectangle where
  x := if r.x = -1 then chip.x else r.x
  y := if r.y = -1 then chip.y else r.y
  width := if r.width = -1 then chip.width else r.width
  height := if r.height = -1 then chip.height else r.height

namespace Camera

def setSize (chipSize : Rectangle) (default_crpix : ℚ × ℚ) (wcs_crpix : Option (ℚ × ℚ))
    (binningHorizontal binningVertical : Int32) : Camera :=
  ⟨chipSize, chipSize, default_crpix, wcs_crpix, binningHorizontal, binningVertical⟩

def box (s : Camera) (r : Rectangle) : Int × Camera :=
  let r := s.chipSize.fill r
  if (r.x - s.chipSize.x) + r.width > s.chipSize.width ∨
      (r.y - s.chipSize.y) + r.height > s.chipSize.height then (-1, s)
  else (0, { s with
    wcs_crpix := s.wcs_crpix.map fun _ =>
      ((s.default_crpix.1 - r.x.toInt) / s.binningHorizontal.toInt,
        (s.default_crpix.2 - r.y.toInt) / s.binningVertical.toInt)
    chipUsedReadout := r })

def centered (chipSize size : Int32) : Int32 × Int32 :=
  if size > 0 ∧ chipSize ≥ size then (chipSize / 2 - size / 2, size) else (chipSize / 4, chipSize / 2)

def centerWindow (chip : Rectangle) (in_w in_h : Int32) : Rectangle where
  x := (centered chip.width in_w).1
  y := (centered chip.height in_h).1
  width := (centered chip.width in_w).2
  height := (centered chip.height in_h).2

def center (s : Camera) (in_w in_h : Int32) : Int × Camera := s.box (centerWindow s.chipSize in_w in_h)

def answer (s : Camera) : Request → Int × Camera
  | .box r => s.box r
  | .full | .scriptEnds => s.box ⟨-1, -1, -1, -1⟩
  | .center w h => s.center w h
  | .setWindow r =>
    if s.chipUsedReadout = r then (0, s)
    else if (s.box r).1 = 0 then s.box r else (-2, s)
  | .queued r => if (s.box r).1 = 0 then s.box r else (-2, s)

end Camera

def Request.window (chip : Rectangle) : Request → Rectangle
  | .box r | .setWindow r | .queued r => chip.fill r
  | .full | .scriptEnds => chip.fill ⟨-1, -1, -1, -1⟩
  | .center w h => chip.fill (Camera.centerWindow chip w h)

/-- The request is refused exactly when its window is not on the chip, and then changes nothing; the
window in use stays on the chip. -/
structure Camera.Correct (s : Camera) (r : Request) : Prop where
  inside : (s.answer r).2.chipUsedReadout.Inside s.chipSize
  refused : (s.answer r).1 ≠ 0 ↔ ¬(r.window s.chipSize).Inside s.chipSize
  unchanged : (s.answer r).1 ≠ 0 → (s.answer r).2 = s

def Camera.Kept : Camera → List Request → Prop
  | s, [] => s.chipUsedReadout.Inside s.chipSize
  | s, r :: rs => s.chipUsedReadout.Inside s.chipSize ∧ s.Correct r ∧ (s.answer r).2.Kept rs

def Rectangle.Past (r chip : Rectangle) : Prop :=
  Beyond r.x r.width chip.x chip.width ∨ Beyond r.y r.height chip.y chip.height

def Request.Meets (chip : Rectangle) (r : Request) : Prop :=
  (r.window chip).Inside chip ∨ (r.window chip).Past chip

theorem end_beyond (start size chipStart chipSize : Int32) :
    (start - chipStart) + size > chipSize ↔ Beyond start size chipStart chipSize := by
  rw [gt_iff_lt, Int32.lt_iff_toInt_lt, Int32.toInt_add, Int32.toInt_sub, Int.bmod_add_bmod, Beyond]

theorem Within.not_beyond {start size chipStart chipSize : Int32}
    (within : Within start size chipStart chipSize) : ¬Beyond start size chipStart chipSize := by
  obtain ⟨positive, least, most⟩ := within
  have bound := Int32.toInt_lt chipSize
  have small : (start.toInt - chipStart.toInt + size.toInt).bmod (2 ^ 32) =
      start.toInt - chipStart.toInt + size.toInt := Int.bmod_eq_of_le (by omega) (by omega)
  rw [Beyond, small]
  omega

theorem Rectangle.Inside.not_past {r chip : Rectangle} (inside : r.Inside chip) : ¬r.Past chip :=
  not_or.mpr ⟨inside.x.not_beyond, inside.y.not_beyond⟩

theorem fill_self (chip : Rectangle) : chip.fill chip = chip := by
  simp only [Rectangle.fill, ite_self]

theorem fill_fill (chip r : Rectangle) : chip.fill (chip.fill r) = chip.fill r := by
  simp only [Rectangle.fill, Rectangle.mk.injEq]
  refine ⟨?_, ?_, ?_, ?_⟩ <;> split <;> simp_all

theorem inside_self (chip : Rectangle) :
    chip.Inside chip ↔ 0 < chip.width.toInt ∧ 0 < chip.height.toInt :=
  ⟨fun inside => ⟨inside.x.1, inside.y.1⟩, fun positive =>
    ⟨⟨positive.1, le_refl _, le_refl _⟩, ⟨positive.2, le_refl _, le_refl _⟩⟩⟩

namespace Camera

variable {s : Camera}

def Filled (s : Camera) : Prop := s.chipSize.fill s.chipUsedReadout = s.chipUsedReadout

theorem box_past {r : Rectangle} (past : (s.chipSize.fill r).Past s.chipSize) : s.box r = (-1, s) := by
  rw [Rectangle.Past, ← end_beyond, ← end_beyond] at past
  exact if_pos past

theorem box_taken {r : Rectangle} (free : ¬(s.chipSize.fill r).Past s.chipSize) :
    (s.box r).1 = 0 ∧ (s.box r).2.chipSize = s.chipSize ∧
      (s.box r).2.chipUsedReadout = s.chipSize.fill r := by
  rw [Rectangle.Past, ← end_beyond, ← end_beyond] at free
  simp only [box, free, if_false, and_self]

theorem answer_past {r : Request} (inside : s.chipUsedReadout.Inside s.chipSize) (filled : s.Filled)
    (past : (r.window s.chipSize).Past s.chipSize) : (s.answer r).1 ≠ 0 ∧ (s.answer r).2 = s := by
  cases r with
  | box r => rw [answer, box_past past]; exact ⟨(by decide : (-1 : Int) ≠ 0), rfl⟩
  | full => rw [answer, box_past past]; exact ⟨(by decide : (-1 : Int) ≠ 0), rfl⟩
  | center w h => rw [answer, center, box_past past]; exact ⟨(by decide : (-1 : Int) ≠ 0), rfl⟩
  | setWindow r =>
    have other : s.chipUsedReadout ≠ r := by
      rintro rfl
      rw [Request.window, filled] at past
      exact inside.not_past past
    simp [answer, other, box_past past]
  | queued r => simp [answer, box_past past]
  | scriptEnds => rw [answer, box_past past]; exact ⟨(by decide : (-1 : Int) ≠ 0), rfl⟩

theorem answer_taken {r : Request} (filled : s.Filled)
    (free : ¬(r.window s.chipSize).Past s.chipSize) :
    (s.answer r).1 = 0 ∧ (s.answer r).2.chipSize = s.chipSize ∧
      (s.answer r).2.chipUsedReadout = r.window s.chipSize := by
  cases r with
  | box r => exact box_taken free
  | full => exact box_taken free
  | center w h => exact box_taken free
  | setWindow r =>
    obtain ⟨taken, chip, window⟩ := box_taken free
    by_cases same : s.chipUsedReadout = r
    · subst same
      rw [answer, if_pos rfl]
      exact ⟨rfl, rfl, filled.symm⟩
    · simp only [answer, same, if_false, taken, if_true]
      exact ⟨trivial, chip, window⟩
  | queued r =>
    obtain ⟨taken, chip, window⟩ := box_taken free
    simp only [answer, taken, if_true]
    exact ⟨trivial, chip, window⟩
  | scriptEnds => exact box_taken free

theorem correct_iff {r : Request} (inside : s.chipUsedReadout.Inside s.chipSize) (filled : s.Filled) :
    s.Correct r ↔ r.Meets s.chipSize := by
  by_cases past : (r.window s.chipSize).Past s.chipSize
  · obtain ⟨refused, unchanged⟩ := answer_past inside filled past
    refine ⟨fun _ => .inr past, fun _ => ⟨unchanged.symm ▸ inside, ?_, fun _ => unchanged⟩⟩
    exact ⟨fun _ fits => fits.not_past past, fun _ => refused⟩
  · obtain ⟨taken, chip, window⟩ := answer_taken filled past
    constructor
    · intro correct
      have fits := correct.inside
      rw [window] at fits
      exact .inl fits
    · intro meets
      have fits := meets.resolve_right past
      exact ⟨window ▸ fits, ⟨fun refused => absurd taken refused, fun out => absurd fits out⟩,
        fun refused => absurd taken refused⟩

theorem answer_filled {r : Request} (inside : s.chipUsedReadout.Inside s.chipSize) (filled : s.Filled) :
    (s.answer r).2.chipSize = s.chipSize ∧ (s.answer r).2.Filled := by
  by_cases past : (r.window s.chipSize).Past s.chipSize
  · rw [(answer_past inside filled past).2]
    exact ⟨rfl, filled⟩
  · obtain ⟨_, chip, window⟩ := answer_taken filled past
    refine ⟨chip, ?_⟩
    rw [Filled, chip, window]
    cases r <;> exact fill_fill _ _

theorem kept_within_iff {requests : List Request} (inside : s.chipUsedReadout.Inside s.chipSize)
    (filled : s.Filled) : s.Kept requests ↔ ∀ r ∈ requests, r.Meets s.chipSize := by
  induction requests generalizing s with
  | nil => exact ⟨fun _ _ mem => (List.not_mem_nil mem).elim, fun _ => inside⟩
  | cons r rs ih =>
    obtain ⟨chip, filled'⟩ := answer_filled (r := r) inside filled
    rw [Kept, List.forall_mem_cons, correct_iff inside filled]
    constructor
    · rintro ⟨_, meets, kept⟩
      have inside' := ((correct_iff inside filled).mpr meets).inside
      exact ⟨meets, chip ▸ (ih (chip.symm ▸ inside') filled').mp kept⟩
    · rintro ⟨meets, rest⟩
      have inside' := ((correct_iff inside filled).mpr meets).inside
      exact ⟨inside, meets, (ih (chip.symm ▸ inside') filled').mpr (chip.symm ▸ rest)⟩

/-- From the whole chip, whatever the requests, exactly if the chip is one and each of their windows
is on the chip or ends past it. -/
theorem kept_from_setSize_iff (chipSize : Rectangle) (default_crpix : ℚ × ℚ)
    (wcs_crpix : Option (ℚ × ℚ)) (binningHorizontal binningVertical : Int32)
    (requests : List Request) :
    (setSize chipSize default_crpix wcs_crpix binningHorizontal binningVertical).Kept requests ↔
      (0 < chipSize.width.toInt ∧ 0 < chipSize.height.toInt) ∧ ∀ r ∈ requests, r.Meets chipSize := by
  rw [← inside_self]
  have filled : (setSize chipSize default_crpix wcs_crpix binningHorizontal binningVertical).Filled :=
    fill_self chipSize
  constructor
  · intro kept
    have inside : chipSize.Inside chipSize := by
      cases requests with
      | nil => exact kept
      | cons r rs => exact kept.1
    exact ⟨inside, (kept_within_iff inside filled).mp kept⟩
  · rintro ⟨inside, meets⟩
    exact (kept_within_iff inside filled).mpr meets

/-- A box that starts before the chip is taken. -/
theorem box_before_chip :
    ¬(setSize ⟨0, 0, 100, 100⟩ (0, 0) none 1 1).Kept [.box ⟨-5, 0, 10, 10⟩] := by
  rintro ⟨_, correct, _⟩
  have least := correct.inside.x.2.1
  revert least
  decide

end Camera

end Rts2.Camd.Window
