import DistributedCompilation.Base.Types
import DistributedCompilation.Lib.CommandLine

/-!
# Distributed Compilation — quoting

`quote_windows_argument` and `build_command_line` of `process.cpp`. What a process
started with a command line reads as its arguments are the arguments it was built
from.
-/

namespace DistributedCompilation

open CommandLine

/-- The characters of `" \t\n\v\""`. -/
def needsQuotes (c : UInt8) : Bool := c == 32 || c == 9 || c == 10 || c == 11 || c == 34

/-- The loop of `quote_windows_argument`, behind a number of backslashes. -/
def quoteFrom (backslashes : Nat) : Bytes → Bytes
  | [] => List.replicate (backslashes * 2) 92 ++ [34]
  | c :: rest =>
    if c = 92 then quoteFrom (backslashes + 1) rest
    else if c = 34 then List.replicate (backslashes * 2 + 1) 92 ++ 34 :: quoteFrom 0 rest
    else List.replicate backslashes 92 ++ c :: quoteFrom 0 rest

def quoteWindowsArgument (argument : Bytes) : Bytes :=
  if argument ≠ [] ∧ argument.any needsQuotes = false then argument else 34 :: quoteFrom 0 argument

def buildCommandLine (executable : Bytes) (arguments : List Bytes) : Bytes :=
  arguments.foldl (fun command argument => command ++ [32] ++ quoteWindowsArgument argument)
    (quoteWindowsArgument executable)

example : quoteWindowsArgument (txt "with space\\") = txt "\"with space\\\\\"" := by decide

-- ---------------------------------------------------------------------------
-- One argument
-- ---------------------------------------------------------------------------

/-- What the loop writes, a reader in quotes takes for the argument. -/
theorem scan_quoteFrom (argument : Bytes) (backslashes : Nat) {rest : Bytes} (ends : Ends rest) :
    scan .quoted 0 (quoteFrom backslashes argument ++ rest) =
      (List.replicate backslashes 92 ++ argument, rest) := by
  induction argument generalizing backslashes with
  | nil =>
    have heven : 0 + backslashes * 2 = 2 * backslashes := by omega
    have hend : scan .closing 0 rest = ([], rest) := scan_end 0 (by decide) ends
    rw [quoteFrom, List.append_assoc, scan_backslashes rfl, heven]
    show scan .quoted (2 * backslashes) (34 :: rest) = _
    rw [scan_close, hend]
    rfl
  | cons c argument ih =>
    unfold quoteFrom
    split
    · next hbackslash =>
      rw [ih, List.replicate_succ', List.append_assoc, hbackslash]
      rfl
    · next hbackslash =>
      split
      · next hquote =>
        have hodd : 0 + (backslashes * 2 + 1) = 2 * backslashes + 1 := by omega
        rw [List.append_assoc, scan_backslashes rfl, hodd]
        show scan .quoted (2 * backslashes + 1) (34 :: (quoteFrom 0 argument ++ rest)) = _
        rw [scan_escaped]
        show glue _ (scan .quoted 0 (quoteFrom 0 argument ++ rest)) = _
        rw [ih, hquote]
        simp [glue]
      · next hquote =>
        rw [List.append_assoc, scan_backslashes rfl, Nat.zero_add]
        show scan .quoted backslashes (c :: (quoteFrom 0 argument ++ rest)) = _
        rw [scan_literal _ _ hbackslash hquote (.inl rfl)]
        show glue _ (scan .quoted 0 (quoteFrom 0 argument ++ rest)) = _
        rw [ih]
        simp [glue]

/-- An argument without quotes and blanks stands for itself. -/
theorem scan_plain {argument : Bytes} (plain : ∀ c ∈ argument, c ≠ 34 ∧ isBlank c = false) (n : Nat) {rest : Bytes}
    (ends : Ends rest) : scan .plain n (argument ++ rest) = (List.replicate n 92 ++ argument, rest) := by
  induction argument generalizing n with
  | nil => rw [List.nil_append, scan_end n (by decide) ends, List.append_nil]
  | cons c argument ih =>
    have hc := plain c (List.mem_cons_self ..)
    have hargument (d : UInt8) (hd : d ∈ argument) := plain d (List.mem_cons_of_mem _ hd)
    by_cases hbackslash : c = 92
    · subst hbackslash
      rw [List.cons_append, scan_backslash]
      show scan .plain (n + 1) (argument ++ rest) = _
      rw [ih hargument, List.replicate_succ', List.append_assoc]
      rfl
    · rw [List.cons_append, scan_literal _ _ hbackslash hc.1 (.inr hc.2)]
      show glue _ (scan .plain 0 (argument ++ rest)) = _
      rw [ih hargument]
      simp [glue]

/-- A line that begins with a quoted argument begins with that argument. -/
theorem split_quoteWindowsArgument (argument : Bytes) {rest : Bytes} (ends : Ends rest) :
    split (quoteWindowsArgument argument ++ rest) = argument :: split rest := by
  unfold quoteWindowsArgument
  split
  · next h =>
    obtain ⟨hne, hplain⟩ := h
    have plain (c : UInt8) (hc : c ∈ argument) : c ≠ 34 ∧ isBlank c = false := by
      have hquotes := List.any_eq_false.mp hplain c hc
      simp only [needsQuotes, Bool.or_eq_true, beq_iff_eq, not_or] at hquotes
      obtain ⟨⟨⟨⟨hspace, htab⟩, -⟩, -⟩, hquote⟩ := hquotes
      refine ⟨hquote, ?_⟩
      simp [isBlank, hspace, htab]
    have hscan : scan .plain 0 (argument ++ rest) = (argument, rest) := scan_plain plain 0 ends
    cases argument with
    | nil => exact absurd rfl hne
    | cons c argument => exact split_of_scan (plain c (List.mem_cons_self ..)).2 hscan
  · have hscan : scan .plain 0 (34 :: (quoteFrom 0 argument ++ rest)) = (argument, rest) := by
      rw [scan_open, scan_quoteFrom argument 0 ends]
      rfl
    exact split_of_scan rfl hscan

-- ---------------------------------------------------------------------------
-- The command line
-- ---------------------------------------------------------------------------

/-- What `build_command_line` appends to the executable. -/
def argumentTail (arguments : List Bytes) : Bytes :=
  arguments.flatMap fun argument => 32 :: quoteWindowsArgument argument

theorem buildCommandLine_eq (executable : Bytes) (arguments : List Bytes) :
    buildCommandLine executable arguments = quoteWindowsArgument executable ++ argumentTail arguments := by
  have append (command : Bytes) : arguments.foldl (fun command argument => command ++ [32] ++
      quoteWindowsArgument argument) command = command ++ argumentTail arguments := by
    induction arguments generalizing command with
    | nil => exact (List.append_nil command).symm
    | cons argument arguments ih =>
      rw [List.foldl_cons, ih]
      simp [argumentTail]
  exact append _

theorem ends_argumentTail (arguments : List Bytes) : Ends (argumentTail arguments) := by
  cases arguments with
  | nil => exact trivial
  | cons argument arguments => exact rfl

theorem split_argumentTail (arguments : List Bytes) : split (argumentTail arguments) = arguments := by
  induction arguments with
  | nil => exact split_nil
  | cons argument arguments ih =>
    have hcons : argumentTail (argument :: arguments) =
        32 :: (quoteWindowsArgument argument ++ argumentTail arguments) := rfl
    rw [hcons, split_blank _ rfl, split_quoteWindowsArgument argument (ends_argumentTail arguments), ih]

/-- Quoting adds no zero byte. -/
theorem zero_not_mem_quote {argument : Bytes} (h : 0 ∉ argument) : 0 ∉ quoteWindowsArgument argument := by
  have hfrom : ∀ n, 0 ∉ quoteFrom n argument := by
    induction argument with
    | nil => simp [quoteFrom, List.mem_replicate]
    | cons c argument ih =>
      obtain ⟨hc, hargument⟩ := not_or.mp (fun hmem => h (List.mem_cons.mpr hmem))
      intro n
      unfold quoteFrom
      split
      · exact ih hargument _
      · split
        · simp [List.mem_replicate, ih hargument 0]
        · simp [List.mem_replicate, ih hargument 0, hc]
  unfold quoteWindowsArgument
  split
  · exact h
  · exact fun hmem => (List.mem_cons.mp hmem).elim (by decide) (hfrom 0)

/-- The arguments of a command line are those it was built from. -/
theorem parse_buildCommandLine (executable : Bytes) (arguments : List Bytes)
    (zeroFree : ∀ argument ∈ arguments, 0 ∉ argument) :
    parse ((buildCommandLine executable arguments).drop (quoteWindowsArgument executable).length) = arguments := by
  have hkept : ∀ c ∈ argumentTail arguments, (c != 0) = true := by
    intro c hc
    obtain ⟨argument, hargument, hmem⟩ := List.mem_flatMap.mp hc
    rw [bne_iff_ne]
    rintro rfl
    exact (List.mem_cons.mp hmem).elim (by decide) (zero_not_mem_quote (zeroFree argument hargument))
  rw [buildCommandLine_eq, List.drop_left, parse, List.takeWhile_eq_self_iff.mpr hkept, split_argumentTail]

/-- Backslashes, quotes and an empty argument. -/
theorem parse_buildCommandLine_mixed :
    parse ((buildCommandLine (txt "a b") [txt "\\\"", [], txt "c \\"]).drop
      (quoteWindowsArgument (txt "a b")).length) = [txt "\\\"", [], txt "c \\"] :=
  parse_buildCommandLine _ _ (by decide)

end DistributedCompilation
