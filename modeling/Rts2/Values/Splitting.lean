import Rts2.Scripts.Reparsing

/-! SplitStr with a blank as its delimiter: words of white space, or in single or double quotes. -/
namespace Rts2.Values

open Scripts.Parsing (Text isspace skip)

def nextToken (t : Text) : Option Char × Text × Text :=
  match skip t with
  | '"' :: u => (some '"', u.takeWhile (· ≠ '"'), (u.dropWhile (· ≠ '"')).tail)
  | '\'' :: u => (some '\'', u.takeWhile (· ≠ '\''), (u.dropWhile (· ≠ '\'')).tail)
  | u => (none, u.takeWhile (!isspace ·), u.dropWhile (!isspace ·))

def splitTokens : ℕ → Text → List (Option Char × Text)
  | 0, _ => []
  | _, [] => []
  | turns + 1, t =>
    let (quote, body, rest) := nextToken t
    if body = [] then splitTokens turns rest else (quote, body) :: splitTokens turns rest

def SplitStr (text : Text) : List Text := (splitTokens (text.length + 1) text).map (·.2)

def joined (words : List Text) : Text := [' '].intercalate words

/-- How a token was read: what stands before it is passed over. -/
inductive Reads (t : Text) : Option Char → Text → Text → Prop where
  | plain (lead body rest : Text) (text : t = lead ++ (body ++ rest))
      (ink : ∀ c ∈ body, isspace c = false) (no_quote : ∀ c ∈ body.head?, c ≠ '"' ∧ c ≠ '\'')
      (whole : body = [] → rest = []) : Reads t none body rest
  | closed (lead : Text) (q : Char) (body rest : Text) (quote : q = '"' ∨ q = '\'')
      (text : t = lead ++ (q :: (body ++ q :: rest))) (inside : q ∉ body) :
      Reads t (some q) body rest
  | open_ (lead : Text) (q : Char) (body : Text) (quote : q = '"' ∨ q = '\'')
      (text : t = lead ++ (q :: body)) (inside : q ∉ body) : Reads t (some q) body []

theorem reads_quoted {t u : Text} {q : Char} (quote : q = '"' ∨ q = '\'')
    (skipped : skip t = q :: u) :
    Reads t (some q) (u.takeWhile (· ≠ q)) (u.dropWhile (· ≠ q)).tail := by
  have split : t = t.takeWhile isspace ++ q :: u := by
    rw [← skipped]
    exact (List.takeWhile_append_dropWhile ..).symm
  have inside : q ∉ u.takeWhile (· ≠ q) := fun mem => by simpa using List.mem_takeWhile_imp mem
  have whole : u = u.takeWhile (· ≠ q) ++ u.dropWhile (· ≠ q) :=
    (List.takeWhile_append_dropWhile ..).symm
  cases behind : u.dropWhile (· ≠ q) with
  | nil =>
    refine .open_ (t.takeWhile isspace) q _ quote ?_ inside
    rw [behind, List.append_nil] at whole
    rw [← whole]
    exact split
  | cons c rest =>
    have closing : c = q := by
      have stops := List.head?_dropWhile_not (· ≠ q) u
      rw [behind] at stops
      simpa using stops
    subst closing
    refine .closed (t.takeWhile isspace) c _ rest quote ?_ inside
    rw [← behind, List.takeWhile_append_dropWhile]
    exact split

theorem nextToken_reads (t : Text) :
    Reads t (nextToken t).1 (nextToken t).2.1 (nextToken t).2.2 := by
  unfold nextToken
  split
  next u skipped => exact reads_quoted (.inl rfl) skipped
  next u skipped => exact reads_quoted (.inr rfl) skipped
  next u double single =>
    refine .plain (t.takeWhile isspace) _ _ ?_ (fun c mem => ?_) (fun c first => ?_) fun empty => ?_
    · rw [List.takeWhile_append_dropWhile]
      exact (List.takeWhile_append_dropWhile ..).symm
    · simpa using List.mem_takeWhile_imp mem
    · obtain ⟨rest, eq⟩ : ∃ rest, skip t = c :: rest := by
        cases skipped : skip t with
        | nil => simp [skipped] at first
        | cons d rest =>
          rw [skipped, List.takeWhile_cons] at first
          split at first
          · exact ⟨rest, by rw [Option.some.inj first]⟩
          · simp at first
      constructor
      · rintro rfl
        exact double rest eq
      · rintro rfl
        exact single rest eq
    · cases skipped : skip t with
      | nil => rfl
      | cons c rest =>
        have ink := List.head?_dropWhile_not isspace t
        rw [show t.dropWhile isspace = c :: rest from skipped] at ink
        rw [skipped, List.takeWhile_cons_of_pos (by simpa using ink)] at empty
        contradiction

theorem Reads.shorter {t body rest : Text} {quote : Option Char} (reads : Reads t quote body rest)
    (some_char : t ≠ []) : rest.length < t.length := by
  have letters := List.length_pos_iff.mpr some_char
  cases reads with
  | plain lead _ _ text _ _ whole =>
    by_cases empty : body = []
    · rw [whole empty]
      exact letters
    · have ink := List.length_pos_iff.mpr empty
      rw [text, List.length_append, List.length_append]
      omega
  | closed lead q _ _ _ text _ =>
    rw [text]
    simp only [List.length_append, List.length_cons]
    omega
  | open_ lead q _ _ _ _ => exact letters

def writeWord (w : Text) : Text := if ' ' ∈ w then '"' :: (w ++ ['"']) else w

structure Kept (w : Text) : Prop where
  some_char : w ≠ []
  quoted : ' ' ∈ w → '"' ∉ w
  plain : ' ' ∉ w → (∀ c ∈ w, isspace c = false) ∧ ∀ c ∈ w.head?, c ≠ '"' ∧ c ≠ '\''

theorem nextToken_space (t : Text) : nextToken (' ' :: t) = nextToken t := by
  have same : skip (' ' :: t) = skip t := rfl
  rw [nextToken, same]
  rfl

theorem nextToken_write {w rest : Text} (kept : Kept w)
    (ends : ∀ c ∈ rest.head?, isspace c = true) :
    (nextToken (writeWord w ++ rest)).2 = (w, rest) := by
  unfold writeWord
  split
  next spaced =>
    obtain ⟨body, behind⟩ := Lib.takeWhile_boundary (fun c => decide (c ≠ '"')) w ('"' :: rest)
      (fun c mem => by
        rw [decide_eq_true_eq]
        rintro rfl
        exact kept.quoted spaced mem)
      (fun c first => by cases first; rfl)
    have text : '"' :: (w ++ ['"']) ++ rest = '"' :: (w ++ '"' :: rest) := by simp
    have skipped : skip ('"' :: (w ++ '"' :: rest)) = '"' :: (w ++ '"' :: rest) := rfl
    rw [text, nextToken, skipped]
    exact Prod.ext body (congrArg List.tail behind)
  next unspaced =>
    obtain ⟨ink, no_quote⟩ := kept.plain unspaced
    obtain ⟨c, u, rfl⟩ := List.exists_cons_of_ne_nil kept.some_char
    obtain ⟨double, single⟩ := no_quote c rfl
    obtain ⟨body, behind⟩ := Lib.takeWhile_boundary (fun d => !isspace d) (c :: u) rest
      (fun d mem => by rw [ink d mem]; rfl) (fun d first => by rw [ends d first]; rfl)
    have skipped : skip (c :: u ++ rest) = c :: u ++ rest :=
      List.dropWhile_cons_of_neg (by simp [ink c List.mem_cons_self])
    rw [nextToken, skipped]
    split
    next same => exact absurd (List.cons.inj same).1 double
    next same => exact absurd (List.cons.inj same).1 single
    next => exact Prod.ext body behind

theorem splitTokens_cons (turns : ℕ) {t : Text} (some_char : t ≠ []) :
    splitTokens (turns + 1) t = if (nextToken t).2.1 = [] then splitTokens turns (nextToken t).2.2
      else ((nextToken t).1, (nextToken t).2.1) :: splitTokens turns (nextToken t).2.2 := by
  cases t with
  | nil => exact absurd rfl some_char
  | cons c t => rfl

@[simp] theorem splitTokens_nil (turns : ℕ) : splitTokens turns [] = [] := by
  cases turns <;> rfl

theorem joined_cons (w w' : Text) (ws : List Text) :
    joined (w :: w' :: ws) = w ++ ' ' :: joined (w' :: ws) := by
  simp [joined, List.intercalate]

theorem splitTokens_word {w rest t : Text} (kept : Kept w)
    (ends : ∀ c ∈ rest.head?, isspace c = true)
    (text : t = writeWord w ++ rest ∨ t = ' ' :: (writeWord w ++ rest)) (turns : ℕ) :
    (splitTokens (turns + 1) t).map (·.2) = w :: (splitTokens turns rest).map (·.2) := by
  have written : writeWord w ≠ [] := by
    unfold writeWord
    split
    · simp
    · exact kept.some_char
  have some_char : t ≠ [] := by
    rcases text with rfl | rfl
    · simp [written]
    · simp
  have read : (nextToken t).2 = (w, rest) := by
    rcases text with rfl | rfl
    · exact nextToken_write kept ends
    · rw [nextToken_space]
      exact nextToken_write kept ends
  rw [splitTokens_cons _ some_char, read, if_neg kept.some_char]
  rfl

theorem splitTokens_words {w : Text} {ws : List Text} {t : Text} (kept : Kept w)
    (others : ∀ w' ∈ ws, Kept w') {turns : ℕ} (enough : t.length < turns)
    (text : t = joined ((w :: ws).map writeWord) ∨ t = ' ' :: joined ((w :: ws).map writeWord)) :
    (splitTokens turns t).map (·.2) = w :: ws := by
  induction ws generalizing w t turns with
  | nil =>
    obtain ⟨turns, rfl⟩ := Nat.exists_eq_succ_of_ne_zero (Nat.ne_of_gt (Nat.zero_lt_of_lt enough))
    have alone : joined ([w].map writeWord) = writeWord w ++ [] := by simp [joined]
    rw [alone] at text
    rw [splitTokens_word kept (by simp) text, splitTokens_nil]
    rfl
  | cons w' ws ih =>
    obtain ⟨turns, rfl⟩ := Nat.exists_eq_succ_of_ne_zero (Nat.ne_of_gt (Nat.zero_lt_of_lt enough))
    obtain ⟨kept', others⟩ := List.forall_mem_cons.mp others
    rw [List.map_cons, List.map_cons, joined_cons, ← List.map_cons (f := writeWord)] at text
    have shorter : (' ' :: joined ((w' :: ws).map writeWord)).length < turns := by
      have length : (' ' :: joined ((w' :: ws).map writeWord)).length < t.length := by
        have letters : 0 < (writeWord w).length := by
          rw [List.length_pos_iff]
          unfold writeWord
          split
          · simp
          · exact kept.some_char
        rcases text with rfl | rfl
        · simp only [List.length_append, List.length_cons] at letters ⊢
          omega
        · simp only [List.length_append, List.length_cons] at letters ⊢
          omega
      omega
    rw [splitTokens_word kept (fun c first => by cases first; rfl) text,
      ih kept' others shorter (.inr rfl)]

theorem SplitStr_joined {ws : List Text} (kept : ∀ w ∈ ws, Kept w) :
    SplitStr (joined (ws.map writeWord)) = ws := by
  cases ws with
  | nil => rfl
  | cons w ws =>
    obtain ⟨first, others⟩ := List.forall_mem_cons.mp kept
    exact splitTokens_words first others (Nat.lt_succ_self _) (.inl rfl)

def quotedBy (q : Char) (tokens : List (Option Char × Text)) : ℕ :=
  tokens.countP (fun token => token.1 = some q)

def letters (c : Char) (tokens : List (Option Char × Text)) : ℕ :=
  (tokens.map (fun token => token.2.count c)).sum

structure Token (token : Option Char × Text) : Prop where
  some_char : token.2 ≠ []
  plain : token.1 = none → (∀ c ∈ token.2, isspace c = false) ∧
    ∀ c ∈ token.2.head?, c ≠ '"' ∧ c ≠ '\''
  quoted : ∀ q, token.1 = some q → (q = '"' ∨ q = '\'') ∧ q ∉ token.2

theorem splitTokens_tokens (turns : ℕ) (t : Text) : ∀ token ∈ splitTokens turns t, Token token := by
  induction turns generalizing t with
  | zero => simp [splitTokens]
  | succ turns ih =>
    by_cases empty : t = []
    · simp [empty]
    · rw [splitTokens_cons _ empty]
      have reads := nextToken_reads t
      split
      · exact ih _
      next some_char =>
        refine List.forall_mem_cons.mpr ⟨⟨some_char, fun plain => ?_, fun q quoted => ?_⟩, ih _⟩
        · generalize nextToken t = token at reads plain ⊢
          obtain ⟨quote, body, rest⟩ := token
          cases plain
          cases reads with
          | plain lead _ _ text ink no_quote whole => exact ⟨ink, no_quote⟩
        · generalize nextToken t = token at reads quoted ⊢
          obtain ⟨quote, body, rest⟩ := token
          cases quoted
          cases reads with
          | closed lead _ _ _ quote text inside => exact ⟨quote, inside⟩
          | open_ lead _ _ quote text inside => exact ⟨quote, inside⟩

/-- Opening and closing quotes are not in the words; only the last can be open. -/
structure Counted (q : Char) (tokens : List (Option Char × Text)) (t : Text) : Prop where
  last : letters q tokens + 2 * quotedBy q tokens ≤ t.count q + 1
  opened : letters q tokens + quotedBy q tokens ≤ t.count q

theorem Counted.reads {q : Char} {t body rest : Text} {quote : Option Char}
    {tokens : List (Option Char × Text)} (reads : Reads t quote body rest)
    (counted : Counted q tokens rest) (ended : rest = [] → tokens = []) :
    Counted q ((quote, body) :: tokens) t := by
  obtain ⟨last, opened⟩ := counted
  have letters_cons : letters q ((quote, body) :: tokens) = body.count q + letters q tokens := by
    simp [letters]
  have quoted_cons : quotedBy q ((quote, body) :: tokens) =
      quotedBy q tokens + if quote = some q then 1 else 0 := by
    simp [quotedBy, List.countP_cons]
  cases reads with
  | plain lead _ _ text _ _ _ =>
    have count : t.count q = lead.count q + (body.count q + rest.count q) := by
      rw [text, List.count_append, List.count_append]
    rw [if_neg (by simp)] at quoted_cons
    constructor <;> omega
  | closed lead q' _ _ _ text _ =>
    by_cases same : q' = q
    · subst same
      have count : t.count q' = lead.count q' + (body.count q' + (rest.count q' + 1) + 1) := by
        rw [text, List.count_append, List.count_cons_self, List.count_append, List.count_cons_self]
      rw [if_pos rfl] at quoted_cons
      constructor <;> omega
    · have count : t.count q = lead.count q + (body.count q + rest.count q) := by
        rw [text, List.count_append, List.count_cons_of_ne same, List.count_append,
          List.count_cons_of_ne same]
      rw [if_neg (by simpa using same)] at quoted_cons
      constructor <;> omega
  | open_ lead q' _ _ text _ =>
    have none := ended rfl
    subst none
    have nothing : letters q [] = 0 ∧ quotedBy q [] = 0 := ⟨rfl, rfl⟩
    by_cases same : q' = q
    · subst same
      have count : t.count q' = lead.count q' + (body.count q' + 1) := by
        rw [text, List.count_append, List.count_cons_self]
      rw [if_pos rfl] at quoted_cons
      constructor <;> omega
    · have count : t.count q = lead.count q + body.count q := by
        rw [text, List.count_append, List.count_cons_of_ne same]
      rw [if_neg (by simpa using same)] at quoted_cons
      constructor <;> omega

theorem splitTokens_counted (q : Char) (turns : ℕ) (t : Text) :
    Counted q (splitTokens turns t) t := by
  induction turns generalizing t with
  | zero => exact ⟨Nat.le_add_left .., Nat.zero_le _⟩
  | succ turns ih =>
    by_cases empty : t = []
    · rw [empty, splitTokens_nil]
      exact ⟨by simp [letters, quotedBy], by simp [letters, quotedBy]⟩
    · have reads := nextToken_reads t
      have step := (ih (nextToken t).2.2).reads reads fun none => by rw [none, splitTokens_nil]
      rw [splitTokens_cons _ empty]
      split
      next passed =>
        obtain ⟨last, opened⟩ := step
        have fewer : letters q (splitTokens turns (nextToken t).2.2) ≤
            letters q (((nextToken t).1, (nextToken t).2.1) ::
              splitTokens turns (nextToken t).2.2) := by
          simp [letters]
        have fewer' : quotedBy q (splitTokens turns (nextToken t).2.2) ≤
            quotedBy q (((nextToken t).1, (nextToken t).2.1) ::
              splitTokens turns (nextToken t).2.2) := by
          simp [quotedBy, List.countP_cons]
        exact ⟨by omega, by omega⟩
      next => exact step

theorem joined_count (q : Char) (other : q ≠ ' ') (ws : List Text) :
    (joined (ws.map writeWord)).count q = (ws.map (List.count q)).sum +
      if q = '"' then 2 * ws.countP (fun w => ' ' ∈ w) else 0 := by
  have written (w : Text) : (writeWord w).count q =
      w.count q + if q = '"' then (if ' ' ∈ w then 2 else 0) else 0 := by
    unfold writeWord
    by_cases spaced : ' ' ∈ w
    · by_cases double : q = '"'
      · simp [spaced, double]
      · simp [spaced, double, List.count_cons_of_ne (Ne.symm double)]
    · simp [spaced]
  induction ws with
  | nil => simp [joined]
  | cons w ws ih =>
    have step : (joined ((w :: ws).map writeWord)).count q =
        (writeWord w).count q + (joined (ws.map writeWord)).count q := by
      cases ws with
      | nil => simp [joined]
      | cons w' ws =>
        rw [List.map_cons, List.map_cons, joined_cons, List.count_append,
          List.count_cons_of_ne (Ne.symm other)]
    rw [step, written, ih, List.map_cons, List.sum_cons, List.countP_cons]
    by_cases double : q = '"' <;> by_cases spaced : ' ' ∈ w <;> simp [double, spaced] <;> omega

theorem all_of_countP_le {α : Type} (p p' : α → Bool) {l : List α}
    (more : ∀ a ∈ l, p a = true → p' a = true) (few : l.countP p' ≤ l.countP p) :
    ∀ a ∈ l, p' a = true → p a = true := by
  induction l with
  | nil => simp
  | cons a l ih =>
    obtain ⟨here, others⟩ := List.forall_mem_cons.mp more
    have mono := List.countP_mono_left others
    rw [List.countP_cons, List.countP_cons] at few
    by_cases pa : p a = true
    · have pa' := here pa
      rw [if_pos pa, if_pos pa'] at few
      exact List.forall_mem_cons.mpr ⟨fun _ => pa, ih others (by omega)⟩
    · rw [if_neg pa] at few
      by_cases pa' : p' a = true
      · rw [if_pos pa'] at few
        omega
      · rw [if_neg pa'] at few
        exact List.forall_mem_cons.mpr ⟨fun h => absurd h pa', ih others (by omega)⟩

theorem SplitStr_joined_iff (ws : List Text) :
    SplitStr (joined (ws.map writeWord)) = ws ↔ ∀ w ∈ ws, Kept w := by
  refine ⟨fun same => ?_, SplitStr_joined⟩
  unfold SplitStr at same
  generalize (joined (ws.map writeWord)).length + 1 = turns at same
  have tokens_ok := splitTokens_tokens turns (joined (ws.map writeWord))
  have counted (q : Char) := splitTokens_counted q turns (joined (ws.map writeWord))
  generalize splitTokens turns (joined (ws.map writeWord)) = tokens at same tokens_ok counted
  have same_letters (q : Char) : letters q tokens = (ws.map (List.count q)).sum := by
    rw [← same, List.map_map]
    rfl
  have spaces : ws.countP (fun w => ' ' ∈ w) = tokens.countP (fun token => ' ' ∈ token.2) := by
    rw [← same, List.countP_map]
    rfl
  have no_single : ∀ token ∈ tokens, token.1 ≠ some '\'' := by
    have opened := (counted '\'').opened
    rw [joined_count '\'' (by decide), same_letters, if_neg (by decide)] at opened
    have none : quotedBy '\'' tokens = 0 := by omega
    simpa [quotedBy] using none
  have few : tokens.countP (fun token => token.1 = some '"') ≤
      tokens.countP (fun token => ' ' ∈ token.2) := by
    have last := (counted '"').last
    rw [joined_count '"' (by decide), same_letters, if_pos rfl, spaces] at last
    unfold quotedBy at last
    omega
  have spaced_quoted : ∀ token ∈ tokens, ' ' ∈ token.2 → token.1 = some '"' := by
    intro token mem spaced
    cases opening : token.1 with
    | none =>
      have blank := ((tokens_ok token mem).plain opening).1 ' ' spaced
      contradiction
    | some q =>
      rcases ((tokens_ok token mem).quoted q opening).1 with rfl | rfl
      · rfl
      · exact absurd opening (no_single token mem)
  have quoted_spaced := all_of_countP_le (fun token : Option Char × Text => ' ' ∈ token.2)
    (fun token => token.1 = some '"') (by simpa using spaced_quoted) few
  intro w mem
  rw [← same] at mem
  obtain ⟨token, listed, rfl⟩ := List.mem_map.mp mem
  refine ⟨(tokens_ok token listed).some_char, fun spaced => ?_, fun unspaced => ?_⟩
  · exact ((tokens_ok token listed).quoted '"' (spaced_quoted token listed spaced)).2
  · cases opening : token.1 with
    | none => exact (tokens_ok token listed).plain opening
    | some q =>
      rcases ((tokens_ok token listed).quoted q opening).1 with rfl | rfl
      · have spaced := quoted_spaced token listed (by simpa using opening)
        exact absurd (by simpa using spaced) unspaced
      · exact absurd opening (no_single token listed)

end Rts2.Values
