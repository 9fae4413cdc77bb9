import Mathlib

/-!
# Command lines

How a program of the Microsoft C runtime reads its arguments from one command
line. Blanks separate arguments; a quote switches between the two modes, and a
quoted blank belongs to its argument. Backslashes are literal except in front of
a quote: `2 n` of them stand for `n` and leave the quote its meaning, `2 n + 1`
of them stand for `n` and a literal quote. A doubled quote in a quoted part is one
literal quote.
-/

namespace CommandLine

/-- The separators: a space or a tab. -/
def isBlank (c : UInt8) : Bool := c == 32 || c == 9

/-- Out of quotes, in quotes, and behind a quote that closes unless another one follows. -/
inductive Mode | plain | quoted | closing
deriving DecidableEq

/-- The mode once the next byte is known not to be a quote. -/
def Mode.settled : Mode → Mode
  | .quoted => .quoted
  | _ => .plain

/-- Puts bytes in front of an argument that has been read. -/
def glue (front : List UInt8) (read : List UInt8 × List UInt8) : List UInt8 × List UInt8 :=
  (front ++ read.1, read.2)

/-- Reads one argument, behind `n` backslashes: the argument and what follows it. -/
def scan : Mode → Nat → List UInt8 → List UInt8 × List UInt8
  | _, n, [] => (List.replicate n 92, [])
  | mode, n, c :: rest =>
    if c = 92 then scan mode.settled (n + 1) rest
    else if c = 34 then
      if n % 2 = 1 then glue (List.replicate (n / 2) 92 ++ [34]) (scan mode.settled 0 rest)
      else
        match mode with
        | .plain => glue (List.replicate (n / 2) 92) (scan .quoted 0 rest)
        | .quoted => glue (List.replicate (n / 2) 92) (scan .closing 0 rest)
        | .closing => glue (List.replicate (n / 2) 92 ++ [34]) (scan .quoted 0 rest)
    else if mode ≠ .quoted ∧ isBlank c = true then (List.replicate n 92, c :: rest)
    else glue (List.replicate n 92 ++ [c]) (scan mode.settled 0 rest)

/-- What follows an argument is no longer than what it was read from. -/
theorem length_scan_le (mode : Mode) (n : Nat) (line : List UInt8) :
    (scan mode n line).2.length ≤ line.length := by
  induction line generalizing mode n with
  | nil => exact Nat.le_refl 0
  | cons c rest ih =>
    have shorter (mode : Mode) (n : Nat) : (scan mode n rest).2.length ≤ (c :: rest).length :=
      Nat.le_succ_of_le (ih mode n)
    unfold scan
    split
    · exact shorter _ _
    · split
      · split
        · exact shorter _ _
        · cases mode <;> exact shorter _ _
      · split
        · exact Nat.le_refl _
        · exact shorter _ _

/-- The first byte of an argument is read. -/
theorem length_scan_lt {c : UInt8} (rest : List UInt8) (h : isBlank c = false) :
    (scan .plain 0 (c :: rest)).2.length < (c :: rest).length := by
  have shorter (mode : Mode) (n : Nat) : (scan mode n rest).2.length < (c :: rest).length :=
    Nat.lt_succ_of_le (length_scan_le mode n rest)
  unfold scan
  split
  · exact shorter _ _
  · split
    · split
      · exact shorter _ _
      · exact shorter _ _
    · split
      · next hblank =>
        rw [h] at hblank
        exact absurd hblank.2 Bool.false_ne_true
      · exact shorter _ _

-- ---------------------------------------------------------------------------
-- What each byte does
-- ---------------------------------------------------------------------------

@[simp] theorem glue_nil (read : List UInt8 × List UInt8) : glue [] read = read := rfl

@[simp] theorem glue_glue (front back : List UInt8) (read : List UInt8 × List UInt8) :
    glue front (glue back read) = glue (front ++ back) read := by
  simp [glue]

theorem scan_backslash (mode : Mode) (n : Nat) (rest : List UInt8) :
    scan mode n (92 :: rest) = scan mode.settled (n + 1) rest := by
  rw [scan.eq_def]
  exact if_pos rfl

/-- A run of backslashes is counted. -/
theorem scan_backslashes {mode : Mode} (settled : mode.settled = mode) (n k : Nat) (rest : List UInt8) :
    scan mode n (List.replicate k 92 ++ rest) = scan mode (n + k) rest := by
  induction k generalizing n with
  | zero => rfl
  | succ k ih =>
    rw [List.replicate_succ, List.cons_append, scan_backslash, settled, ih]
    congr 1
    omega

/-- An odd number of backslashes makes the quote behind them literal. -/
theorem scan_escaped (mode : Mode) (n : Nat) (rest : List UInt8) :
    scan mode (2 * n + 1) (34 :: rest) = glue (List.replicate n 92 ++ [34]) (scan mode.settled 0 rest) := by
  have hodd : (2 * n + 1) % 2 = 1 := by omega
  have hhalf : (2 * n + 1) / 2 = n := by omega
  rw [scan.eq_def]
  simp only [show ¬(34 : UInt8) = 92 by decide, if_false, if_true, if_pos hodd, hhalf]

/-- A quote out of quotes opens them. -/
theorem scan_open (rest : List UInt8) : scan .plain 0 (34 :: rest) = scan .quoted 0 rest := by
  rw [scan, if_neg (by decide), if_pos rfl]
  exact glue_nil _

/-- An even number of backslashes leaves the quote behind them its meaning. -/
theorem scan_close (n : Nat) (rest : List UInt8) :
    scan .quoted (2 * n) (34 :: rest) = glue (List.replicate n 92) (scan .closing 0 rest) := by
  have heven : ¬2 * n % 2 = 1 := by omega
  have hhalf : 2 * n / 2 = n := by omega
  rw [scan, if_neg (by decide), if_pos rfl, if_neg heven, hhalf]

/-- Any other byte is literal, and so are the backslashes before it. -/
theorem scan_literal {mode : Mode} {c : UInt8} (n : Nat) (rest : List UInt8) (backslash : c ≠ 92) (quote : c ≠ 34)
    (kept : mode = .quoted ∨ isBlank c = false) :
    scan mode n (c :: rest) = glue (List.replicate n 92 ++ [c]) (scan mode.settled 0 rest) := by
  rw [scan.eq_def]
  simp only [if_neg backslash, if_neg quote]
  rw [if_neg]
  rintro ⟨hmode, hblank⟩
  rcases kept with rfl | hkept
  · exact hmode rfl
  · rw [hkept] at hblank
    exact Bool.false_ne_true hblank

/-- An argument ends with the line or at a blank. -/
def Ends : List UInt8 → Prop
  | [] => True
  | c :: _ => isBlank c = true

theorem scan_end {mode : Mode} (n : Nat) {rest : List UInt8} (unquoted : mode ≠ .quoted) (ends : Ends rest) :
    scan mode n rest = (List.replicate n 92, rest) := by
  cases rest with
  | nil => rw [scan]
  | cons c rest =>
    have hblank : isBlank c = true := ends
    have hbackslash : c ≠ 92 := by
      rintro rfl
      cases hblank
    have hquote : c ≠ 34 := by
      rintro rfl
      cases hblank
    rw [scan.eq_def]
    simp only [if_neg hbackslash, if_neg hquote]
    exact if_pos ⟨unquoted, hblank⟩

-- ---------------------------------------------------------------------------
-- Lines
-- ---------------------------------------------------------------------------

/-- The arguments of a line. -/
def split (line : List UInt8) : List (List UInt8) :=
  match _hline : line.dropWhile isBlank with
  | [] => []
  | c :: rest =>
    (scan .plain 0 (c :: rest)).1 :: split (scan .plain 0 (c :: rest)).2
termination_by line.length
decreasing_by
  have hblank : isBlank c = false := by
    have h := List.head?_dropWhile_not isBlank line
    rw [_hline] at h
    simpa using h
  have hshort := length_scan_lt rest hblank
  have hdrop := (List.dropWhile_suffix isBlank (l := line)).length_le
  rw [_hline] at hdrop
  omega

@[simp] theorem split_nil : split [] = [] := by
  rw [split]
  rfl

theorem split_blank {c : UInt8} (line : List UInt8) (h : isBlank c = true) : split (c :: line) = split line := by
  rw [split, split, List.dropWhile_cons_of_pos h]

/-- A line that begins with an argument. -/
theorem split_of_scan {c : UInt8} {line arg rest : List UInt8} (h : isBlank c = false)
    (hscan : scan .plain 0 (c :: line) = (arg, rest)) : split (c :: line) = arg :: split rest := by
  have hblank : ¬isBlank c = true := by
    rw [h]
    exact Bool.false_ne_true
  rw [split, List.dropWhile_cons_of_neg hblank]
  simp only [hscan]

/-- A command line ends at its first zero byte. -/
def parse (line : List UInt8) : List (List UInt8) := split (line.takeWhile (· != 0))

end CommandLine
