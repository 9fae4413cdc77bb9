import DistributedCompilation.Codec.RequestRoundTrip
import DistributedCompilation.Domain.Identification

/-!
# Distributed Compilation — a unit record says what it is about

The bytes a unit identity is the hash of can be read back: `readUnitRecord`
returns the `UnitBody` they were written from. So two units whose canonical
bytes agree have the same sources, dependencies and flags, and the same children
with the same child identities. While a request is being identified, a record names the new
digests of the children before it and the supplied ones of the children after.
-/

namespace DistributedCompilation

open Reader Decoder

/-- A source without its identity digest. -/
def UnitSource.bare (source : UnitSource) : UnitSource := { source with identityDigest := default }

/-- A dependency without its identity digest. -/
def DependencyEntry.bare (entry : DependencyEntry) : DependencyEntry :=
  { entry with identityDigest := default }

/-- What `write_unit_identity_body` writes. -/
structure UnitBody where
  toolchain : Digest256
  target : Digest256
  specialization : Digest256
  policy : Digest256
  dependencySet : Digest256
  environment : Digest256
  kind : UnitKind
  logicalName : Bytes
  outputKind : OutputKind
  sources : List UnitSource
  dependencies : List DependencyEntry
  flags : List Bytes
  requestFlags : List Bytes
  children : List (UInt32 × Digest256)
  mandatory : Bool
deriving DecidableEq

def readDependencyEntry : Reader DependencyEntry := do
  let name ← readStr
  let kind ← readEnum
  let content ← decodeContentRef
  pure { name, kind, content }

def readChild : Reader (UInt32 × Digest256) := do
  let child ← readU32
  let identity ← readDigest
  pure (child, identity)

def readUnitRecord : Reader UnitBody := do
  readDomain (txt "dc.unit.v1")
  let toolchain ← readDigest
  let target ← readDigest
  let specialization ← readDigest
  let policy ← readDigest
  let dependencySet ← readDigest
  let environment ← readDigest
  let kind ← readEnum
  let logicalName ← readStr
  let outputKind ← readEnum
  let sources ← readItems decodeUnitSource
  let dependencies ← readItems readDependencyEntry
  let flags ← readStringList
  let requestFlags ← readStringList
  let children ← readItems readChild
  let mandatory ← readBool
  pure {
    toolchain, target, specialization, policy, dependencySet, environment, kind, logicalName,
    outputKind, sources, dependencies, flags, requestFlags, children, mandatory }

theorem parse_readDependencyEntries {β : Type} (items : List DependencyEntry)
    (f : List DependencyEntry → Reader β) (rest : Bytes)
    (h : (writeList items writeDependencyEntry).eachFits = true) :
    (readItems readDependencyEntry >>= f).parse
        ((writeList items writeDependencyEntry).bytes ++ rest) =
      (f (items.map DependencyEntry.bare)).parse rest := by
  simp only [writeList, Record.eachFits_cons, Record.eachFits_flatMap, Bool.and_eq_true,
    List.all_eq_true] at h
  have all : items.mapM (fun x => some (DependencyEntry.bare x)) =
    some (items.map DependencyEntry.bare) := List.mapM_pure
  refine (parse_readItems_mapM (fun x => some (DependencyEntry.bare x)) items f h.1
    fun x hx rest => ?_).trans ?_
  · have hx := h.2 x hx
    simp only [writeDependencyEntry, Record.eachFits_cons, Bool.and_eq_true] at hx
    simp only [readDependencyEntry, writeDependencyEntry, Record.bytes_cons, List.append_assoc,
      parse_readStr, parse_readEnum, parse_contentRef_bind, hx, parse_pure, Option.map_some]
    rfl
  · rw [all, Option.bind_some]

/-- The children as the record names them. -/
def writeChildren (children : List (UInt32 × Digest256)) : Record :=
  writeList children fun child => [.u32 child.1, .digest child.2]

theorem parse_readChildren {β : Type} (children : List (UInt32 × Digest256))
    (f : List (UInt32 × Digest256) → Reader β) (rest : Bytes)
    (h : (writeChildren children).eachFits = true) :
    (readItems readChild >>= f).parse ((writeChildren children).bytes ++ rest) =
      (f children).parse rest := by
  refine parse_plainItems children f rest h fun x _ rest => ?_
  simp only [readChild, Record.bytes_cons, Record.bytes_nil, List.append_assoc, List.nil_append,
    parse_readU32, parse_readDigest, parse_pure]

section

variable [HashFunction]

/-- A child with the identity it has in `request`. -/
def CompilationRequest.child (request : CompilationRequest) (child : UInt32) :
    UInt32 × Digest256 :=
  (child, ((request.findUnit child).map (·.identityDigest)).getD .zero)

/-- What the record of `unit` is about. -/
def unitBody (request : CompilationRequest) (unit : CompilationUnitSpec) : UnitBody where
  toolchain := request.toolchain.identityDigest
  target := request.target.identityDigest
  specialization := request.specialization.identityDigest
  policy := request.policy.identityDigest
  dependencySet := request.dependencies.identityDigest
  environment := computeEnvironmentIdentity request.environment
  kind := unit.kind
  logicalName := unit.logicalName
  outputKind := unit.outputKind
  sources := unit.sources.map UnitSource.bare
  dependencies := unit.dependencies.map DependencyEntry.bare
  flags := unit.flags
  requestFlags := request.flags
  children := unit.childUnits.map request.child
  mandatory := unit.mandatory

omit [HashFunction] in
theorem writeList_child (request : CompilationRequest) (children : List UInt32) :
    (writeList children fun child =>
      [.u32 child, .digest (((request.findUnit child).map (·.identityDigest)).getD .zero)]) =
      writeChildren (children.map request.child) := by
  rw [writeChildren, writeList, writeList, List.flatMap_map, Field.count, Field.count,
    List.length_map]
  rfl

/-- The record is read back whole. -/
theorem parse_readUnitRecord (request : CompilationRequest) (unit : CompilationUnitSpec)
    (rest : Bytes) (h : (unitRecord request unit).eachFits = true) :
    readUnitRecord.parse ((unitRecord request unit).bytes ++ rest) =
      some (unitBody request unit, rest) := by
  simp only [unitRecord, writeUnitIdentityBody, writeList_child, Record.join_cons,
    Record.join_nil, Record.eachFits_cons, Record.eachFits_append, Bool.and_eq_true] at h
  obtain ⟨hdomain, hhead, hsources, hdeps, hflags, hrequestFlags, hchildren, -⟩ := h
  have sources : (writeList unit.sources fun source =>
      .str source.logicalName :: .enum source.format :: .str source.languageMode ::
        writeContentRef source.content) = writeList unit.sources encodeUnitSource := rfl
  rw [sources] at hsources
  simp only [readUnitRecord, unitRecord, writeUnitIdentityBody, writeList_child, sources,
    Record.join_cons, Record.join_nil, Record.bytes_append, Record.bytes_cons, Record.bytes_nil,
    List.append_assoc, List.nil_append, parse_readDomain _ hdomain, parse_readDigest,
    parse_readEnum, parse_readStr, parse_unitSources _ _ _ hsources,
    parse_readDependencyEntries _ _ _ hdeps, parse_readStringList _ _ _ hflags,
    parse_readStringList _ _ _ hrequestFlags, parse_readChildren _ _ _ hchildren, parse_readBool,
    hhead, parse_pure]
  rfl

/-- Canonical bytes determine what they are about. -/
theorem unitBody_eq_of_bytes {request request' : CompilationRequest}
    {unit unit' : CompilationUnitSpec} (h : (unitRecord request unit).fits = true)
    (h' : (unitRecord request' unit').fits = true)
    (heq : (unitRecord request unit).bytes = (unitRecord request' unit').bytes) :
    unitBody request unit = unitBody request' unit' := by
  have read := parse_readUnitRecord request unit [] (Record.eachFits_of_fits h)
  have read' := parse_readUnitRecord request' unit' [] (Record.eachFits_of_fits h')
  rw [heq, read'] at read
  exact (Prod.mk.inj (Option.some.inj read)).1.symm

/-- The bytes are a function of what they are about. -/
theorem unitRecord_eq_of_body {request request' : CompilationRequest}
    {unit unit' : CompilationUnitSpec} (heq : unitBody request unit = unitBody request' unit') :
    unitRecord request unit = unitRecord request' unit' := by
  have bareSources : ∀ sources : List UnitSource, (writeList sources fun source =>
      .str source.logicalName :: .enum source.format :: .str source.languageMode ::
        writeContentRef source.content) =
      writeList (sources.map UnitSource.bare) encodeUnitSource := by
    intro sources
    rw [writeList, writeList, List.flatMap_map, Field.count, Field.count, List.length_map]
    rfl
  have bareDependencies : ∀ deps : List DependencyEntry, writeList deps writeDependencyEntry =
      writeList (deps.map DependencyEntry.bare) writeDependencyEntry := by
    intro deps
    rw [writeList, writeList, List.flatMap_map, Field.count, Field.count, List.length_map]
    rfl
  simp only [unitBody, UnitBody.mk.injEq] at heq
  obtain ⟨h1, h2, h3, h4, h5, h6, h7, h8, h9, h10, h11, h12, h13, h14, h15⟩ := heq
  rw [unitRecord, unitRecord, writeUnitIdentityBody, writeUnitIdentityBody, writeList_child,
    writeList_child, bareSources, bareSources, bareDependencies unit.dependencies,
    bareDependencies unit'.dependencies, h1, h2, h3, h4, h5, h6, h7, h8, h9, h10, h11, h12, h13,
    h14, h15]

-- ---------------------------------------------------------------------------
-- Children during the identification
-- ---------------------------------------------------------------------------

/-- The digest at a position. -/
def digestAt (units : List CompilationUnitSpec) (i : Nat) : Option Digest256 :=
  units[i]?.map (·.identityDigest)

/-- Canonicalizing a unit leaves the digest its client supplied. -/
theorem Laid.digestAt_eq {r : CompilationRequest} {units : List CompilationUnitSpec}
    (h : Laid r units) (j : UInt32) : digestAt units j.toNat = r.identityOf j := by
  rw [digestAt, CompilationRequest.identityOf]
  cases hfind : r.findUnit j with
  | none => rw [h.getElem?_of_none hfind]
  | some unit =>
    obtain ⟨unit', hunit, hget⟩ := h.getElem?_of_findUnit hfind
    rw [hget, Option.map_some, Option.map_some,
      (canonicalizeUnit_eq_ok (canonicalizeUnit_eq_ok_iff.mpr hunit)).2]

/-- The digest the record at position `i` names for a child. -/
theorem Identified.child_eq {request : CompilationRequest} {before after : List CompilationUnitSpec}
    (h : Identified request before after) (hd : Dense before) {i : Nat} (hi : i < before.length)
    (child : UInt32) :
    (identifiedIn request before after i).child child =
      (child, ((if child.toNat < i then digestAt after child.toNat
        else digestAt before child.toNat)).getD .zero) := by
  rw [CompilationRequest.child, h.findUnit hd hi]
  split <;> rfl

/-- The unit records hashed on the way from `r` to its canonical form. -/
def hashedUnits (r : CompilationRequest) : List Bytes :=
  match canonicalize r,
    canonicalizeUnits r.policy 0 (sortBy (fun a b => compare a.index b.index) r.units) with
  | .ok c, .ok units => units.mapIdx fun i unit =>
      (unitRecord (identifiedIn c units c.units i) unit).bytes
  | _, _ => []

theorem mem_hashedUnits {r c : CompilationRequest} {units : List CompilationUnitSpec}
    (hr : canonicalize r = .ok c) (hlaid : Laid r units) {i : Nat} (hi : i < units.length) :
    (unitRecord (identifiedIn c units c.units i) units[i]).bytes ∈ hashedUnits r := by
  rw [hashedUnits, hr, hlaid.canonical]
  exact List.mem_mapIdx.mpr ⟨i, hi, rfl⟩

end

end DistributedCompilation
