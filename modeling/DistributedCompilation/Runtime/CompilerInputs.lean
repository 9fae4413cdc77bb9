import DistributedCompilation.Base.Evaluation
import DistributedCompilation.Coordinator.State
import DistributedCompilation.Domain.Canonicalize

/-!
# Distributed Compilation — the files a compiler reads

`MsvcAdapter::run` writes sources, dependencies and children of an assignment
into one directory, under names `sanitize_input_name` makes of their own. A file
is written to a temporary one beside it, which is then renamed. Where two names
lead is up to the file system: it is a parameter here.
-/

namespace DistributedCompilation

-- ---------------------------------------------------------------------------
-- Names
-- ---------------------------------------------------------------------------

/-- `'\\'` becomes `'/'`. -/
def forwardSlash (c : UInt8) : UInt8 := if c = 92 then 47 else c

/-- `/` or `.` -/
def isLeading (c : UInt8) : Bool := c == 47 || c == 46

/-- `sanitize_input_name`. -/
def sanitizeInputName (logicalName : Bytes) : Bytes :=
  let cleaned := (logicalName.map forwardSlash).dropWhile isLeading
  if cleaned.isEmpty then txt "input" else cleaned

/-- The file of a name: without the dots and slashes of either kind it starts with,
and with slashes forward; `input` when nothing is left. -/
inductive FileName (name : Bytes) : Bytes → Prop
  | blank (junk : ∀ c ∈ name, c = 46 ∨ c = 47 ∨ c = 92) : FileName name (txt "input")
  | kept {lead : Bytes} {c : UInt8} {rest : Bytes} (split : name = lead ++ c :: rest)
      (junk : ∀ c ∈ lead, c = 46 ∨ c = 47 ∨ c = 92) (first : c ≠ 46 ∧ c ≠ 47 ∧ c ≠ 92) :
      FileName name (c :: rest.map fun c => if c = 92 then 47 else c)

theorem isLeading_forwardSlash (c : UInt8) : isLeading (forwardSlash c) = true ↔ c = 46 ∨ c = 47 ∨ c = 92 := by
  unfold isLeading forwardSlash
  rw [Bool.or_eq_true, beq_iff_eq, beq_iff_eq]
  split
  · next h => exact ⟨fun _ => .inr (.inr h), fun _ => .inl rfl⟩
  · next h =>
    constructor
    · rintro (h' | h')
      · exact .inr (.inl h')
      · exact .inl h'
    · rintro (h' | h' | h')
      · exact .inr h'
      · exact .inl h'
      · exact absurd h' h

theorem dropWhile_of_all {p : UInt8 → Bool} {lead : Bytes} (h : ∀ c ∈ lead, p c = true) (rest : Bytes) :
    (lead ++ rest).dropWhile p = rest.dropWhile p := by
  induction lead with
  | nil => rfl
  | cons c lead ih =>
    rw [List.cons_append, List.dropWhile_cons_of_pos (h c (List.mem_cons_self ..))]
    exact ih fun c hc => h c (List.mem_cons_of_mem _ hc)

/-- The name that `sanitize_input_name` makes is the one there is. -/
theorem fileName_iff (name file : Bytes) : FileName name file ↔ file = sanitizeInputName name := by
  have leading {lead : Bytes} (junk : ∀ c ∈ lead, c = 46 ∨ c = 47 ∨ c = 92) :
      ∀ c ∈ lead.map forwardSlash, isLeading c = true := by
    intro c hc
    obtain ⟨c', hc', rfl⟩ := List.mem_map.mp hc
    exact (isLeading_forwardSlash c').mpr (junk c' hc')
  constructor
  · rintro (junk | ⟨rfl, junk, first⟩)
    · have hnone := dropWhile_of_all (leading junk) []
      rw [List.append_nil] at hnone
      unfold sanitizeInputName
      rw [hnone]
      rfl
    · next lead c rest =>
      have hself : forwardSlash c = c := if_neg first.2.2
      have hfirst : isLeading c ≠ true := fun h => by
        rw [← hself, isLeading_forwardSlash] at h
        rcases h with h | h | h
        · exact first.1 h
        · exact first.2.1 h
        · exact first.2.2 h
      unfold sanitizeInputName
      rw [List.map_append, dropWhile_of_all (leading junk), List.map_cons, hself,
        List.dropWhile_cons_of_neg hfirst]
      rfl
  · rintro rfl
    induction name with
    | nil => exact .blank fun c hc => nomatch hc
    | cons c name ih =>
      by_cases hc : isLeading (forwardSlash c) = true
      · have hsame : sanitizeInputName (c :: name) = sanitizeInputName name := by
          unfold sanitizeInputName
          rw [List.map_cons, List.dropWhile_cons_of_pos hc]
        have hjunk := (isLeading_forwardSlash c).mp hc
        rw [hsame]
        generalize sanitizeInputName name = file at ih
        cases ih with
        | blank junk => exact .blank fun d hd => (List.mem_cons.mp hd).elim (fun h => h ▸ hjunk) (junk d)
        | @kept lead d rest split junk first =>
          have hsplit : c :: name = (c :: lead) ++ d :: rest := by rw [split]; rfl
          refine .kept hsplit ?_ first
          exact fun d hd => (List.mem_cons.mp hd).elim (fun h => h ▸ hjunk) (junk d)
      · have hfirst : c ≠ 46 ∧ c ≠ 47 ∧ c ≠ 92 := by
          rw [isLeading_forwardSlash, not_or, not_or] at hc
          exact hc
        have hself : forwardSlash c = c := if_neg hfirst.2.2
        have hkept : sanitizeInputName (c :: name) = c :: name.map forwardSlash := by
          unfold sanitizeInputName
          rw [List.map_cons, List.dropWhile_cons_of_neg hc]
          exact congrArg (· :: name.map forwardSlash) hself
        rw [hkept]
        have hsplit : c :: name = [] ++ c :: name := rfl
        exact .kept hsplit (fun d hd => nomatch hd) hfirst

-- ---------------------------------------------------------------------------
-- Files
-- ---------------------------------------------------------------------------

/-- A directory: which relative names can be written, and the file each leads to. -/
structure Workspace (κ : Type) where
  accepts : Bytes → Bool
  place : Bytes → κ

/-- What a compiler is to read: a logical name, what is put behind the file name
made of it, and the content. -/
structure InputFile where
  name : Bytes
  suffix : Bytes := []
  bytes : Bytes
deriving DecidableEq

def InputFile.file (x : InputFile) : Bytes := sanitizeInputName x.name ++ x.suffix

/-- The sources and the dependencies of an assignment in the order they are written. -/
def Assignment.inputs (assignment : Assignment) : List InputFile :=
  (assignment.sources.map fun source => { name := source.logicalName, bytes := source.bytes }) ++
    assignment.dependencies.map fun dep => { name := dep.name, bytes := dep.bytes }

/-- Its children, numbered. -/
def Assignment.childInputs (assignment : Assignment) : List InputFile :=
  assignment.children.zipIdx.map fun (child, i) =>
    { name := child.logicalName, suffix := txt "-" ++ decimal i ++ txt ".obj", bytes := child.bytes }

namespace Workspace

variable {κ : Type} [DecidableEq κ] (w : Workspace κ)

/-- `write_file`: the temporary file is opened first and is gone in the end. -/
def writeFile (name bytes : Bytes) (files : κ → Option Bytes) : Option (κ → Option Bytes) :=
  if w.accepts name then
    some (Function.update (Function.update files (w.place (name ++ txt ".tmp")) none) (w.place name)
      (some bytes))
  else none

/-- The loops of `run` over sources, dependencies and children: the first file that
cannot be written ends the run. -/
def writeInputs : List InputFile → (κ → Option Bytes) → Option (κ → Option Bytes)
  | [], files => some files
  | x :: xs, files => (w.writeFile x.file x.bytes files).bind (writeInputs xs)

/-- The input is written to this file. -/
inductive Leads (x : InputFile) : κ → Prop
  | intro {file : Bytes} (named : FileName x.name file) : Leads x (w.place (file ++ x.suffix))

/-- The input is written to this file or over it. -/
inductive Touches (x : InputFile) : κ → Prop
  | file {k : κ} (leads : w.Leads x k) : Touches x k
  | temporary {file : Bytes} (named : FileName x.name file) :
      Touches x (w.place (file ++ x.suffix ++ txt ".tmp"))

/-- Some input writes these bytes to the file, and none behind it touches the file. -/
def Leaves (items : List InputFile) (k : κ) (bytes : Bytes) : Prop :=
  ∃ (before after : List InputFile) (y : InputFile), items = before ++ y :: after ∧ w.Leads y k ∧
    y.bytes = bytes ∧ ∀ z ∈ after, ¬w.Touches z k

variable {w}

omit [DecidableEq κ] in
theorem leads_iff {x : InputFile} {k : κ} : w.Leads x k ↔ w.place x.file = k := by
  constructor
  · rintro ⟨named⟩
    rw [fileName_iff] at named
    rw [named]
    rfl
  · rintro rfl
    exact ⟨(fileName_iff _ _).mpr rfl⟩

omit [DecidableEq κ] in
theorem touches_iff {x : InputFile} {k : κ} :
    w.Touches x k ↔ w.place x.file = k ∨ w.place (x.file ++ txt ".tmp") = k := by
  constructor
  · rintro (leads | named)
    · exact .inl (leads_iff.mp leads)
    · rw [fileName_iff] at named
      rw [named]
      exact .inr rfl
  · rintro (rfl | rfl)
    · exact .file (leads_iff.mpr rfl)
    · exact .temporary ((fileName_iff _ _).mpr rfl)

theorem writeFile_get {x : InputFile} {files files' : κ → Option Bytes}
    (h : w.writeFile x.file x.bytes files = some files') (k : κ) :
    files' k = if w.place x.file = k then some x.bytes
      else if w.place (x.file ++ txt ".tmp") = k then none else files k := by
  unfold writeFile at h
  split at h
  · obtain rfl := Option.some.inj h
    by_cases hfile : w.place x.file = k
    · rw [if_pos hfile, hfile, Function.update_self]
    · rw [if_neg hfile, Function.update_of_ne fun h => hfile h.symm]
      by_cases htemp : w.place (x.file ++ txt ".tmp") = k
      · rw [if_pos htemp, htemp, Function.update_self]
      · rw [if_neg htemp, Function.update_of_ne fun h => htemp h.symm]
  · cases h

/-- What is in a file once everything is written: what was left there, or what there
was before if nothing touched it. -/
theorem writeInputs_get {items : List InputFile} {files files' : κ → Option Bytes}
    (h : w.writeInputs items files = some files') (k : κ) (bytes : Bytes) :
    files' k = some bytes ↔
      w.Leaves items k bytes ∨ (∀ z ∈ items, ¬w.Touches z k) ∧ files k = some bytes := by
  induction items generalizing files with
  | nil =>
    obtain rfl := Option.some.inj h
    constructor
    · exact fun hfile => .inr ⟨nofun, hfile⟩
    · rintro (⟨before, after, y, hsplit, -⟩ | ⟨-, hfile⟩)
      · simp at hsplit
      · exact hfile
  | cons x items ih =>
    obtain ⟨mid, hmid, hrest⟩ := Option.bind_eq_some_iff.mp h
    have hget := writeFile_get hmid k
    rw [ih hrest]
    constructor
    · rintro (⟨before, after, y, rfl, hy⟩ | ⟨huntouched, hfile⟩)
      · exact .inl ⟨x :: before, after, y, rfl, hy⟩
      · rw [hget] at hfile
        split at hfile
        · next hlead =>
          exact .inl ⟨[], items, x, rfl, leads_iff.mpr hlead, Option.some.inj hfile, huntouched⟩
        · next hlead =>
          split at hfile
          · cases hfile
          · next htemp =>
            refine .inr ⟨fun z hz => ?_, hfile⟩
            rcases List.mem_cons.mp hz with rfl | hz
            · exact fun ht => (touches_iff.mp ht).elim hlead htemp
            · exact huntouched z hz
    · rintro (⟨before, after, y, hsplit, hlead, hbytes, huntouched⟩ | ⟨huntouched, hfile⟩)
      · cases before with
        | nil =>
          obtain ⟨rfl, rfl⟩ := List.cons.inj hsplit
          refine .inr ⟨huntouched, ?_⟩
          rw [hget, if_pos (leads_iff.mp hlead), hbytes]
        | cons first before =>
          obtain ⟨rfl, rfl⟩ := List.cons.inj hsplit
          exact .inl ⟨before, after, y, rfl, hlead, hbytes, huntouched⟩
      · have hx := huntouched x (List.mem_cons_self ..)
        rw [touches_iff, not_or] at hx
        refine .inr ⟨fun z hz => huntouched z (List.mem_cons_of_mem _ hz), ?_⟩
        rw [hget, if_neg hx.1, if_neg hx.2, hfile]

end Workspace

/-- When the compiler starts, every source and dependency is in its file exactly when
its bytes are the last that anything leaves there; and two names share a file name
exactly when they differ in leading dots and slashes and in the kind of slash only, or
are both called `input`. -/
theorem inputs_intact_iff (name name' : Bytes) :
    (∀ (κ : Type) [DecidableEq κ] (w : Workspace κ) (assignment : Assignment) (files files' : κ → Option Bytes),
      w.writeInputs (assignment.inputs ++ assignment.childInputs) files = some files' →
      ((∀ x ∈ assignment.inputs, files' (w.place x.file) = some x.bytes) ↔
        ∀ x ∈ assignment.inputs, ∀ k, w.Leads x k →
          w.Leaves (assignment.inputs ++ assignment.childInputs) k x.bytes)) ∧
    (sanitizeInputName name = sanitizeInputName name' ↔
      ∃ file, FileName name file ∧ FileName name' file) := by
  refine ⟨fun κ _ w assignment files files' h => ?_, ?_⟩
  · refine forall₂_congr fun x hx => ?_
    have htouched (huntouched : ∀ z ∈ assignment.inputs ++ assignment.childInputs,
        ¬w.Touches z (w.place x.file)) : False :=
      huntouched x (List.mem_append_left _ hx) (.file (Workspace.leads_iff.mpr rfl))
    rw [Workspace.writeInputs_get h]
    constructor
    · rintro (hleaves | ⟨huntouched, -⟩) k hk
      · rw [← Workspace.leads_iff.mp hk]
        exact hleaves
      · exact (htouched huntouched).elim
    · exact fun hleaves => .inl (hleaves _ (Workspace.leads_iff.mpr rfl))
  · constructor
    · exact fun h => ⟨_, (fileName_iff _ _).mpr rfl, (fileName_iff _ _).mpr h⟩
    · rintro ⟨file, hfile, hfile'⟩
      rw [← (fileName_iff _ _).mp hfile, ← (fileName_iff _ _).mp hfile']

/-- A directory that keeps every name apart. -/
def plainWorkspace : Workspace Bytes := { accepts := fun _ => true, place := id }

def twoSources (first second : Bytes) : Assignment :=
  { sources := [{ logicalName := first, bytes := txt "x" }, { logicalName := second, bytes := txt "y" }] }

theorem inputs_intact_iff_apart : ∃ files' : Bytes → Option Bytes,
    plainWorkspace.writeInputs ((twoSources (txt "a.cpp") (txt "b.cpp")).inputs ++
      (twoSources (txt "a.cpp") (txt "b.cpp")).childInputs) (fun _ => none) = some files' ∧
    ((∀ x ∈ (twoSources (txt "a.cpp") (txt "b.cpp")).inputs,
        files' (plainWorkspace.place x.file) = some x.bytes) ↔
      ∀ x ∈ (twoSources (txt "a.cpp") (txt "b.cpp")).inputs, ∀ k, plainWorkspace.Leads x k →
        plainWorkspace.Leaves ((twoSources (txt "a.cpp") (txt "b.cpp")).inputs ++
          (twoSources (txt "a.cpp") (txt "b.cpp")).childInputs) k x.bytes) :=
  ⟨_, rfl, (inputs_intact_iff (txt "a.cpp") (txt "b.cpp")).1 _ _ _ _ _ rfl⟩

/-- The inputs of the assignment are those of the unit. -/
structure Assignment.BuiltFrom [HashFunction] (assignment : Assignment) (unit : CompilationUnitSpec) : Prop where
  sources : assignment.sources.map (fun source => (source.logicalName, sha256 source.bytes)) =
    unit.sources.map fun source => (source.logicalName, source.content.digest)
  dependencies : assignment.dependencies.map (fun dep => (dep.name, sha256 dep.bytes)) =
    unit.dependencies.map fun dep => (dep.name, dep.content.digest)
  children : assignment.children.length = unit.childUnits.length

/-- A unit with two sources whose names differ in a leading dot and slash. -/
def dottedRequest : CompilationRequest where
  requestId := ⟨1⟩
  toolchain := { family := .gnu, versionString := txt "13" }
  target := { os := .linux, arch := .x86_64 }
  policy := { requireProvableToolchain := false }
  units := [{ logicalName := txt "a", sources := [
    { logicalName := txt "./a.cpp", content := { digest := sha256 (txt "x"), size := 1 } },
    { logicalName := txt "a.cpp", content := { digest := sha256 (txt "y"), size := 1 } }] }]

def CompilationUnitSpec.isDotted (unit : CompilationUnitSpec) : Bool :=
  (unit.sources.map fun source => (source.logicalName, source.content.digest)) ==
      [(txt "./a.cpp", sha256 (txt "x")), (txt "a.cpp", sha256 (txt "y"))] &&
    unit.dependencies.isEmpty && unit.childUnits.isEmpty

set_option maxRecDepth 100000 in
theorem dottedRequest_accepted : (canonicalize dottedRequest).toOption.any
    (fun request => request.units.any (·.isDotted)) = true := by
  unfold dottedRequest CompilationUnitSpec.isDotted
  rw [hashFunction_eq]
  decide +kernel

/-- The second source is written over the first. -/
theorem not_inputs_intact : ¬∀ request canonical : CompilationRequest, canonicalize request = .ok canonical →
    ∀ unit ∈ canonical.units, ∀ assignment : Assignment, assignment.BuiltFrom unit →
    ∀ files files' : Bytes → Option Bytes,
      plainWorkspace.writeInputs (assignment.inputs ++ assignment.childInputs) files = some files' →
      ∀ x ∈ assignment.inputs, files' (plainWorkspace.place x.file) = some x.bytes := by
  intro h
  have haccepted := dottedRequest_accepted
  cases hcanonical : canonicalize dottedRequest with
  | error fault =>
    rw [hcanonical] at haccepted
    cases haccepted
  | ok canonical =>
    rw [hcanonical] at haccepted
    obtain ⟨unit, hunit, hdotted⟩ := List.any_eq_true.mp haccepted
    unfold CompilationUnitSpec.isDotted at hdotted
    rw [Bool.and_eq_true, Bool.and_eq_true, beq_iff_eq, List.isEmpty_iff, List.isEmpty_iff] at hdotted
    obtain ⟨⟨hsources, hdeps⟩, hchildren⟩ := hdotted
    have hbuilt : (twoSources (txt "./a.cpp") (txt "a.cpp")).BuiltFrom unit :=
      ⟨hsources.symm, by rw [hdeps]; rfl, by rw [hchildren]; rfl⟩
    have hfirst := h _ _ hcanonical unit hunit _ hbuilt (fun _ => none) _ rfl
      { name := txt "./a.cpp", bytes := txt "x" } (List.mem_cons_self ..)
    exact absurd hfirst (by decide)

end DistributedCompilation
