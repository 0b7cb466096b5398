import Rts2.Scripts.Operands

/-! Whole lists of operands: when they are read as they were written, and when what they print is
read as the same list. -/
namespace Rts2.Scripts.Parsing

open Lib

theorem closing_head (ops : List Written) : ∃ c t, closing ops = c :: t ∧ (c = ',' ∨ c = ')') := by
  cases ops with
  | nil => exact ⟨')', [], rfl, .inr rfl⟩
  | cons o ops => exact ⟨',', _, rfl, .inl rfl⟩

theorem closing_unsound {o : Written} {ops : List Written} (unsound : ¬ ∀ p ∈ o :: ops, p.Sound)
    {before : List Text} {s : Split} (depth : Nat)
    (split : splitOperands false (inBrackets before) (o.text ++ closing ops) = some s) :
    ∃ more, s.ops = before ++ more ∧
      more.mapM (parseOperand depth) ≠ some ((o :: ops).map Written.value) := by
  induction ops generalizing o before with
  | nil =>
    have first : ¬ o.Sound := fun sound => unsound (by simpa using sound)
    rcases Written.opens_piece first (Written.opens_text first (.inr rfl) [])
      (inBrackets_within before) rfl Nat.one_ne_zero split with none | ⟨t, more, opens, found⟩
    · exact ⟨[], by simpa [inBrackets] using none, by simp⟩
    · refine ⟨t :: more, by simpa [inBrackets] using found, ?_⟩
      intro read
      exact Written.parse_unsound first opens depth (mapM_cons_some read).1
  | cons next ops ih =>
    by_cases first : o.Sound
    · have others : ¬ ∀ p ∈ next :: ops, p.Sound :=
        fun sound => unsound (List.forall_mem_cons.mpr ⟨first, sound⟩)
      rw [splitOperands_append, Written.split_sound first (inBrackets_within before) rfl
        Nat.one_ne_zero, Option.bind_some, closing, Bool.false_and, splitOperands,
        splitStep_separates ((inBrackets_within before).add _) rfl rfl] at split
      obtain ⟨more, found, other⟩ := ih others
        (by simpa [inBrackets, Split.add] using split)
      refine ⟨o.text :: more, by simpa using found, ?_⟩
      intro read
      exact other (mapM_cons_some read).2
    · obtain ⟨c, t, eq, ends⟩ := closing_head (next :: ops)
      rw [eq] at split
      rcases Written.opens_piece first (Written.opens_text first ends t)
        (inBrackets_within before) rfl Nat.one_ne_zero split with none | ⟨t, more, opens, found⟩
      · exact ⟨[], by simpa [inBrackets] using none, by simp⟩
      · refine ⟨t :: more, by simpa [inBrackets] using found, ?_⟩
        intro read
        exact Written.parse_unsound first opens depth (mapM_cons_some read).1

theorem mem_closing_length {o p : Written} {ops : List Written} (mem : p ∈ o :: ops) :
    p.text.length ≤ (o.text ++ closing ops).length := by
  induction ops generalizing o with
  | nil =>
    rw [List.mem_singleton.mp mem, List.length_append]
    omega
  | cons next ops ih =>
    rw [closing, List.length_append, List.length_cons]
    rcases List.mem_cons.mp mem with rfl | mem
    · omega
    · have rest := ih mem
      omega

theorem list_iff (o : Written) (ops : List Written) :
    parseOperands ('(' :: (o.text ++ closing ops)).length ('(' :: (o.text ++ closing ops)) =
      some ((o :: ops).map Written.value) ↔ ∀ p ∈ o :: ops, p.Sound := by
  constructor
  · intro read
    by_contra unsound
    rw [parseOperands_bracketed] at read
    obtain ⟨s, split, read⟩ := Option.bind_eq_some_iff.mp read
    obtain ⟨more, found, other⟩ := closing_unsound unsound _ split
    rw [found, List.nil_append] at read
    exact other read
  · intro sound
    obtain ⟨first, others⟩ := List.forall_mem_cons.mp sound
    apply parseOperands_sound _ first others
    intro p mem
    apply Written.parse_sound (sound p mem)
    have nested := p.nested_length
    have length := mem_closing_length mem
    rw [List.length_cons]
    omega

theorem parseOperands_unbraced (depth : Nat) {t : Text} (plain : ∀ c ∈ t, Unbraced c) :
    parseOperands (F := ℚ) depth t = (parseOperand depth t).map ([·]) := by
  rw [parseOperands, splitOperands_unbraced plain ⟨rfl, .inr rfl⟩]
  simp only [Split.read, Bool.false_eq_true, if_false, List.nil_append, List.mapM_cons, List.mapM_nil]
  cases parseOperand (F := ℚ) depth t <;> rfl

theorem single_number (blanks : Blanks) (n : Angle) (depth : Nat) :
    parseOperands depth (blanks.1 ++ n.text) = some [.number n.value] ↔
      blanks.1 = [] ∧ n.MinusFirst := by
  have plain : ∀ c ∈ blanks.1 ++ n.text, Unbraced c := by
    intro c mem
    rcases List.mem_append.mp mem with mem | mem
    · exact unbraced_space (blanks.2 c mem)
    · exact unbraced_number (n.chars c mem)
  rw [parseOperands_unbraced depth plain]
  by_cases none : blanks.1 = []
  · have read := parseOperand_angle depth n .nil
    rw [List.append_nil, if_pos rfl] at read
    rw [none, List.nil_append, read, ← n.readValue_iff]
    simp
  · have read := parseOperand_blank depth blanks.2 none n []
    rw [List.append_nil] at read
    rw [read]
    simp [none]

theorem single_name (blanks : Blanks) {str : Text} (formed : OperandName str) (depth : Nat) :
    parseOperands (F := ℚ) depth (blanks.1 ++ str) = some [.string (String.ofList str)] := by
  have plain : ∀ c ∈ blanks.1 ++ str, Unbraced c := by
    intro c mem
    rcases List.mem_append.mp mem with mem | mem
    · exact unbraced_space (blanks.2 c mem)
    · exact unbraced_name (formed.name c mem)
  rw [parseOperands_unbraced depth plain, parseOperand_spaced depth blanks formed]
  rfl

theorem single_quoted (blanks : Blanks) {double : Bool} {str : Text}
    (inside : quoteChar double ∉ str) (depth : Nat) :
    parseOperands (F := ℚ) depth (blanks.1 ++ quoteChar double :: (str ++ [quoteChar double])) =
      none := by
  have start : Within ⟨false, 0, 0, .NONE, [], []⟩ := ⟨rfl, .inr rfl⟩
  rw [parseOperands, splitOperands_append, split_space blanks start rfl, Option.bind_some,
    quoted_split inside (start.add _) rfl]
  simp only [Split.add, Bool.false_eq_true, if_false, List.nil_append, List.mapM_cons,
    parseOperand_quote]
  rfl

theorem ops_kept {t : Text} {s s' : Split} (split : splitOperands false s t = some s') :
    ∃ more, s'.ops = s.ops ++ more := by
  rcases first_piece split with same | ⟨u, more, -, -, found⟩
  · exact ⟨[], by rw [same, List.append_nil]⟩
  · exact ⟨_, found⟩

theorem single_rand (blanks : Blanks) (_from _to : Written) (depth : Nat) :
    parseOperands depth (Written.rand blanks _from _to).text ≠
      some [(Written.rand blanks _from _to).value] := by
  intro read
  have start : Within ⟨false, 0, 0, .NONE, [], []⟩ := ⟨rfl, .inr rfl⟩
  have inner : Within { (⟨false, 0, 0, .NONE, [], []⟩ : Split).add (blanks.1 ++ "rand(".toList) with
      simple_braces := 1 } := ⟨rfl, .inr rfl⟩
  rw [parseOperands, Written.text, split_call blanks start rfl] at read
  split at read
  · cases read
  next s split =>
  have plain : s.bracked = false := splitOperands_bracked split
  rw [plain, if_neg (by simp)] at read
  by_cases sound : _from.Sound
  · rw [splitOperands_append, Written.split_sound sound inner rfl Nat.one_ne_zero,
      Option.bind_some, Bool.false_and, splitOperands,
      splitStep_separates (inner.add _) rfl rfl] at split
    obtain ⟨more, found⟩ := ops_kept split
    have cut : ∀ depth, parseOperand (F := ℚ) depth (blanks.1 ++ "rand(".toList ++ _from.text) =
        none := by
      intro depth
      have whole : blanks.1 ++ "rand(".toList ++ _from.text =
          blanks.1 ++ ("rand".toList ++ '(' :: _from.text) := by simp
      rw [whole]
      cases depth with
      | zero => exact parseOperand_rand_zero blanks _
      | succ depth =>
        rw [parseOperand_rand, parseOperands_bracketed,
          Written.split_sound sound (inBrackets_within []) rfl Nat.one_ne_zero]
        rfl
    have pieces : s.ops = (blanks.1 ++ "rand(".toList ++ _from.text) :: more := by
      simpa [Split.add] using found
    rw [pieces, List.cons_append] at read
    have first := (mapM_cons_some read).1
    rw [cut] at first
    cases first
  · have opens := Written.opens_text sound (.inl rfl) (_to.text ++ [')'])
    rcases Written.opens_piece sound opens inner rfl Nat.one_ne_zero split with
      none | ⟨t, more, opens, found⟩
    · rw [none] at read
      exact Written.parse_unsound (o := .rand blanks _from _to) (fun both => sound both.1)
        ⟨_, rfl, .inl ⟨sound, opens⟩⟩ depth (mapM_cons_some read).1
    · have pieces : s.ops = (blanks.1 ++ ("rand".toList ++ '(' :: t)) :: more := by
        simpa [Split.add] using found
      rw [pieces, List.cons_append] at read
      exact Written.parse_unsound (o := .rand blanks _from _to) (fun both => sound both.1)
        ⟨_, rfl, .inl ⟨sound, opens⟩⟩ depth (mapM_cons_some read).1

theorem single_iff (o : Written) (depth : Nat) :
    parseOperands depth o.text = some [o.value] ↔ o.SoundAlone := by
  cases o with
  | number blanks n => exact single_number blanks n depth
  | name blanks str formed => exact iff_of_true (single_name blanks formed depth) trivial
  | quoted blanks double str inside =>
    refine iff_of_false (fun read => ?_) id
    rw [Written.text, single_quoted blanks inside] at read
    cases read
  | rand blanks _from _to => exact iff_of_false (single_rand blanks _from _to depth) id

theorem empty_list : parseOperands (F := ℚ) "()".toList.length "()".toList ≠ some [] := by
  rw [show "()".toList = '(' :: [')'] from rfl, parseOperands_bracketed, splitOperands,
    splitStep_ends (inBrackets_within []) rfl rfl rfl]
  simp [splitOperands, inBrackets, parseOperand, skip]

theorem Writing.reads_iff (w : Writing) :
    parseOperands w.text.length w.text = some w.values ↔ w.Sound := by
  cases w with
  | single o => exact single_iff o _
  | list ops =>
    cases ops with
    | nil => exact iff_of_false empty_list (fun sound => sound.1 rfl)
    | cons o ops =>
      refine (list_iff o ops).trans ⟨fun sound => ⟨List.cons_ne_nil _ _, sound⟩, fun sound => sound.2⟩

theorem digitChar_name (d : Fin 10) : isName (Numeral.digitChar d) = true := by
  simp [isName, isalnum, (digitChar_digit d).1]

theorem numeral_name (n : Numeral) : ∀ c ∈ n.text, isName c = true := by
  intro c mem
  rcases List.mem_append.mp mem with whole | frac
  · obtain ⟨d, -, rfl⟩ := List.mem_map.mp whole
    exact digitChar_name d
  · split at frac
    · rcases List.mem_cons.mp frac with rfl | frac
      · rfl
      · obtain ⟨d, -, rfl⟩ := List.mem_map.mp frac
        exact digitChar_name d
    · cases frac

theorem exponentText_name (x : ℤ) : ∀ c ∈ exponentText x, isName c = true := by
  intro c mem
  rcases List.mem_cons.mp mem with rfl | mem
  · rfl
  · rcases List.mem_cons.mp mem with rfl | mem
    · split <;> rfl
    · obtain ⟨d, -, rfl⟩ := List.mem_map.mp mem
      exact digitChar_name d

def streamAngle (v : ℚ) (k : ℕ) : Angle where
  sign := if v < 0 then some true else none
  parts := []
  last := some ⟨Numeral.scaled k (sixDigits v).2, .inl (Numeral.natDigits_ne_nil _)⟩
  some_part := .inr (Option.some_ne_none _)

theorem streamAngle_text (v : ℚ) (k : ℕ) :
    (streamAngle v k).text =
      (if v < 0 then ['-'] else []) ++ (Numeral.scaled k (sixDigits v).2).text := by
  by_cases negative : v < 0 <;>
    simp [streamAngle, Angle.text, Angle.signText, Angle.partsText, Angle.lastText, negative]

theorem streamAngle_readValue (v : ℚ) (k : ℕ) :
    (streamAngle v k).readValue = v ↔ (Numeral.scaled k (sixDigits v).2).value = |v| := by
  by_cases negative : v < 0
  · simp only [streamAngle, negative, if_true, Angle.readValue, Angle.signValue, Angle.lastValue,
      abs_of_neg negative]
    constructor <;>
    · intro eq
      linarith
  · simp only [streamAngle, negative, if_false, Angle.readValue, Angle.signValue, Angle.lastValue,
      abs_of_nonneg (not_lt.mp negative), reduceCtorEq, one_mul]

theorem streamDouble_name (v : ℚ) : ∀ c ∈ streamDouble v, isName c = true := by
  intro c mem
  unfold streamDouble at mem
  split at mem
  · rw [List.mem_singleton.mp mem]
    rfl
  · rcases List.mem_append.mp mem with sign | mem
    · split at sign
      · rw [List.mem_singleton.mp sign]
        rfl
      · cases sign
    · split at mem
      · exact numeral_name _ c mem
      · rcases List.mem_append.mp mem with mem | mem
        · exact numeral_name _ c mem
        · exact exponentText_name _ c mem

theorem streamDouble_ne_nil (v : ℚ) : streamDouble v ≠ [] := by
  unfold streamDouble
  split
  · simp
  next some =>
    have text (k : ℕ) : (Numeral.scaled k (sixDigits v).2).text ≠ [] := by
      have whole := Numeral.natDigits_ne_nil ((sixDigits v).2 / 10 ^ k)
      simp [Numeral.text, Numeral.scaled, whole]
    apply List.append_ne_nil_of_right_ne_nil
    split
    · exact text _
    · exact List.append_ne_nil_of_left_ne_nil (text _) _

theorem parseOperand_stream (depth : Nat) (v : ℚ) :
    parseOperand depth (streamDouble v) = some (.number v) ↔ SixDigits v := by
  by_cases zero : v = 0
  · subst zero
    have written : streamDouble 0 = (Angle.mk none [] (some ⟨⟨[0], [], false, fun _ => rfl⟩,
      .inl (List.cons_ne_nil _ _)⟩) (.inr (Option.some_ne_none _))).text := by
      simp [streamDouble, Angle.text, Angle.signText, Angle.partsText, Angle.lastText, Numeral.text,
        Numeral.digitChar]
    rw [written, ← List.append_nil (Angle.text _), parseOperand_angle depth _ .nil, if_pos rfl]
    refine iff_of_true ?_ (.inl rfl)
    simp [Angle.readValue, Angle.signValue, Angle.lastValue, Numeral.value, Numeral.wholeValue,
      Numeral.fracValue]
  · rw [sixDigits_iff zero, streamDouble, if_neg zero]
    by_cases range : -4 ≤ (sixDigits v).1 ∧ (sixDigits v).1 ≤ 5
    · rw [if_pos range, ← streamAngle_text, ← List.append_nil (Angle.text _),
        parseOperand_angle depth _ .nil, if_pos rfl, ← streamAngle_readValue]
      simp [range]
    · have ends : EndsOperand (exponentText (sixDigits v).1) := by
        intro c head
        cases head
        refine ⟨rfl, ?_, ?_, ?_, ?_⟩ <;> simp [unit]
      rw [if_neg range, ← List.append_assoc, ← streamAngle_text, parseOperand_angle depth _ ends,
        if_neg (by simp [exponentText])]
      simp [range]

def streamFloats (fl : Floats ℚ) : Floats ℚ := { fl with write := streamDouble }

theorem streamFloats_writes (fl : Floats ℚ) : (streamFloats fl).Writes :=
  ⟨streamDouble_ne_nil, streamDouble_name⟩

theorem Written.formed {o : Written} (unquoted : o.Sound ∨ o.SoundAlone) :
    FormedOperand o.value := by
  cases o with
  | number | rand => trivial
  | name blanks str formed => simpa [Written.value, FormedOperand] using formed
  | quoted => exact absurd unquoted (or_self_iff.not.mpr id)

theorem Writing.unquoted {w : Writing} (sound : w.Sound) :
    ∀ o ∈ w.operands, o.Sound ∨ o.SoundAlone := by
  intro o listed
  cases w with
  | single p =>
    rw [List.mem_singleton.mp listed]
    exact .inr sound
  | list ops => exact .inl (sound.2 o listed)

theorem Writing.formed {w : Writing} (sound : w.Sound) : ∀ v ∈ w.values, FormedOperand v := by
  intro v mem
  obtain ⟨o, listed, rfl⟩ := List.mem_map.mp mem
  exact Written.formed (w.unquoted sound o listed)

theorem Written.keeps_iff {o : Written} (unquoted : o.Sound ∨ o.SoundAlone) (fl : Floats ℚ) :
    KeepsOperand (streamFloats fl) o.value ↔ o.Kept := by
  cases o with
  | number blanks n => exact parseOperand_stream 0 n.value
  | name => rfl
  | quoted => exact absurd unquoted (or_self_iff.not.mpr id)
  | rand => rfl

theorem writeOperands_unbraced {fl : Floats ℚ} (writes : fl.Writes) {around : Surroundings ℚ}
    {values : List (Operand ℚ)} (formed : ∀ v ∈ values, FormedOperand v) {out : Text}
    (written : writeOperands fl around values = some out) : ∀ c ∈ out, Unbraced c := by
  induction values generalizing out with
  | nil =>
    cases written
    simp
  | cons v values ih =>
    obtain ⟨first, others⟩ := List.forall_mem_cons.mp formed
    obtain ⟨text, one, written⟩ := Option.bind_eq_some_iff.mp written
    have name := writeOperand_name writes first one
    have plain : ∀ c ∈ text, Unbraced c := fun c mem => unbraced_name (name c mem)
    split at written
    · cases written
      exact plain
    · obtain ⟨texts, rest, same⟩ := Option.bind_eq_some_iff.mp written
      cases same
      have behind := ih others rest
      intro c mem
      rcases List.mem_append.mp mem with mem | mem
      · exact plain c mem
      · rcases List.mem_cons.mp mem with rfl | mem
        · exact unbraced_space rfl
        · exact behind c mem

theorem single_values {w : Writing} {v : Operand ℚ} (single : w.values = [v]) :
    ∃ o, w.operands = [o] ∧ o.value = v := by
  obtain ⟨o, rest, operands, value, none⟩ := List.map_eq_cons_iff.mp single
  exact ⟨o, by rw [operands, List.map_eq_nil_iff.mp none], value⟩

theorem writeOperands_single (fl : Floats ℚ) (around : Surroundings ℚ) (v : Operand ℚ) :
    writeOperands fl around [v] = writeOperand fl around v := by
  rw [writeOperands]
  cases writeOperand fl around v <;> rfl

theorem reread_iff (fl : Floats ℚ) (around : Surroundings ℚ) {w : Writing} (sound : w.Sound) :
    (∃ out, writeOperands (streamFloats fl) around w.values = some out ∧
      parseOperands out.length out = some w.values) ↔ ∃ o, w.operands = [o] ∧ o.Kept := by
  have formed := w.formed sound
  have writes := streamFloats_writes fl
  constructor
  · rintro ⟨out, written, read⟩
    rw [parseOperands_unbraced _ (writeOperands_unbraced writes formed written)] at read
    obtain ⟨v, one, values⟩ := Option.map_eq_some_iff.mp read
    obtain ⟨o, operands, rfl⟩ := single_values values.symm
    rw [← values] at written formed
    rw [writeOperands_single] at written
    refine ⟨o, operands, (Written.keeps_iff (w.unquoted sound o ?_) fl).mp ?_⟩
    · rw [operands]
      exact List.mem_singleton_self o
    · exact (parseOperand_written writes (formed _ (List.mem_singleton_self _)) written _).mp one
  · rintro ⟨o, operands, kept⟩
    have values : w.values = [o.value] := by rw [Writing.values, operands, List.map_singleton]
    have keeps := (Written.keeps_iff (w.unquoted sound o (by simp [operands])) fl).mpr kept
    have form : FormedOperand o.value := formed _ (by simp [values])
    obtain ⟨out, written⟩ : ∃ out, writeOperand (streamFloats fl) around o.value = some out := by
      cases o with
      | number | name => exact ⟨_, rfl⟩
      | quoted | rand => exact absurd kept id
    refine ⟨out, by rw [values, writeOperands_single, written], ?_⟩
    have name := writeOperand_name writes form written
    rw [parseOperands_name _ name, (parseOperand_written writes form written _).mpr keeps, values]
    rfl

def RoundTrips (fl : Floats ℚ) (around : Surroundings ℚ) (w : Writing) : Prop :=
  parseOperands w.text.length w.text = some w.values ∧
    ∃ out, writeOperands (streamFloats fl) around w.values = some out ∧
      parseOperands out.length out = some w.values

/-- Sound operands are read; a single name or a number of six digits is kept by printing. -/
theorem operands_roundTrip_iff (fl : Floats ℚ) (around : Surroundings ℚ) (w : Writing) :
    (parseOperands w.text.length w.text = some w.values ↔ w.Sound) ∧
      (RoundTrips fl around w ↔ w.Sound ∧ ∃ o, w.operands = [o] ∧ o.Kept) := by
  refine ⟨w.reads_iff, ?_⟩
  constructor
  · rintro ⟨read, again⟩
    have sound := w.reads_iff.mp read
    exact ⟨sound, (reread_iff fl around sound).mp again⟩
  · rintro ⟨sound, kept⟩
    exact ⟨w.reads_iff.mpr sound, (reread_iff fl around sound).mpr kept⟩

def belowZero : Writing :=
  .single (.number ⟨[], nothing_blank⟩
    ⟨some true, [(⟨⟨[Numeral.digit 1], [], false, fun _ => rfl⟩, .inl (List.cons_ne_nil _ _)⟩, .degree),
      (⟨⟨[Numeral.digit 3, Numeral.digit 0], [], false, fun _ => rfl⟩, .inl (List.cons_ne_nil _ _)⟩, .minute)], none,
      .inl (List.cons_ne_nil _ _)⟩)

theorem minus_of_first_part :
    belowZero.text = "-1d30m".toList ∧ belowZero.values = [.number (-3 / 2)] ∧
      parseOperands 6 "-1d30m".toList = some [.number (-1 / 2 : ℚ)] ∧
      parseOperands 6 belowZero.text ≠ some belowZero.values := by
  refine ⟨by decide, ?_, ?_, fun read => absurd ((single_iff _ 6).mp read).2 ?_⟩
  · simp [belowZero, Writing.values, Writing.operands, Written.value, Angle.value, Angle.signValue,
      Angle.partsValue, Angle.lastValue, Numeral.value, Numeral.wholeValue, Numeral.fracValue,
      Numeral.digit, AngleUnit.size]
    norm_num
  · have text : "-1d30m".toList = Angle.text ⟨some true,
        [(⟨⟨[1], [], false, fun _ => rfl⟩, .inl (List.cons_ne_nil _ _)⟩, .degree),
          (⟨⟨[3, 0], [], false, fun _ => rfl⟩, .inl (List.cons_ne_nil _ _)⟩, .minute)], none,
        .inl (List.cons_ne_nil _ _)⟩ ++ [] := by decide
    rw [parseOperands_unbraced 6 (by simp [Unbraced]), text, parseOperand_angle 6 _ .nil, if_pos rfl]
    simp [Angle.readValue, Angle.signValue, Angle.partsValue, Angle.lastValue, Numeral.value,
      Numeral.wholeValue, Numeral.fracValue, AngleUnit.size]
    norm_num
  · simp [Angle.MinusFirst, Angle.rest, Angle.partsValue, Angle.lastValue, Numeral.value,
      Numeral.wholeValue, Numeral.fracValue, Numeral.digit, AngleUnit.size]

end Rts2.Scripts.Parsing
