import DistributedCompilation.Base.Types
import DistributedCompilation.Lib.Table

/-!
# Distributed Compilation — generation registry

`GenerationRegistry<IdT, GenT>`: for each logical id the generations of the
contents seen under it, with a bounded history. Identical content resolves to
the same generation, new content to the successor of the current one.
-/

namespace DistributedCompilation

/-- `GenerationRegistry::Slot`. -/
structure Slot (tag : GenTag) where
  byContent : Table Digest256 (Gen tag) := ∅
  current : Gen tag := {}
  order : List Digest256 := []

structure GenerationRegistry (idTag : IdTag) (genTag : GenTag) where
  historyLimit : Nat := 64
  slots : Table (Id idTag) (Slot genTag) := ∅

namespace Slot

variable {genTag : GenTag}

/-- The eviction loop: drops the oldest contents past the limit. -/
def evict (limit : Nat) (slot : Slot genTag) : Slot genTag :=
  let excess := slot.order.length - limit
  { slot with
    byContent := (slot.order.take excess).foldl (fun m d => m.erase d) slot.byContent
    order := slot.order.drop excess }

/-- `resolve` on the slot of an id. Known content moves the current generation
to its own, backwards if need be. -/
def resolve (limit : Nat) (content : Digest256) (slot : Slot genTag) :
    Gen genTag × Slot genTag :=
  match slot.byContent[content]? with
  | some generation => (generation, { slot with current := generation })
  | none =>
    let next : Gen genTag := if slot.current.isZero then ⟨1⟩ else slot.current.next
    (next, evict limit {
      byContent := slot.byContent.insert content next
      current := next
      order := slot.order ++ [content] })

/-- `current` on a slot: the first content recorded with the current
generation. -/
def currentContent (slot : Slot genTag) : Option (Gen genTag × Digest256) :=
  if slot.current.isZero then none
  else (slot.byContent.toList.find? (·.2 == slot.current)).map fun entry => (slot.current, entry.1)

end Slot

namespace GenerationRegistry

variable {idTag : IdTag} {genTag : GenTag}

def slot (registry : GenerationRegistry idTag genTag) (id : Id idTag) : Slot genTag :=
  (registry.slots[id]?).getD {}

/-- `resolve`: the generation of `content` under `id`. -/
def resolve (registry : GenerationRegistry idTag genTag) (id : Id idTag) (content : Digest256) :
    Gen genTag × GenerationRegistry idTag genTag :=
  let (generation, slot) := Slot.resolve registry.historyLimit content (registry.slot id)
  (generation, { registry with slots := registry.slots.insert id slot })

/-- `lookup`. -/
def lookup (registry : GenerationRegistry idTag genTag) (id : Id idTag) (content : Digest256) :
    Option (Gen genTag) :=
  (registry.slots[id]?).bind (·.byContent[content]?)

/-- `current`. -/
def current (registry : GenerationRegistry idTag genTag) (id : Id idTag) :
    Option (Gen genTag × Digest256) :=
  (registry.slots[id]?).bind Slot.currentContent

/-- `is_current`. -/
def isCurrent (registry : GenerationRegistry idTag genTag) (id : Id idTag) (content : Digest256) :
    Bool :=
  (registry.current id).any (·.2 == content)

/-- `restore`: puts a pair back during recovery; the current generation
advances to the highest restored value. -/
def restore (registry : GenerationRegistry idTag genTag) (id : Id idTag) (content : Digest256)
    (generation : Gen genTag) : GenerationRegistry idTag genTag :=
  let slot := registry.slot id
  { registry with
    slots := registry.slots.insert id
      { byContent := slot.byContent.insert content generation
        current := if slot.current.value < generation.value then generation else slot.current
        order := if slot.byContent.contains content then slot.order else slot.order ++ [content] } }

end GenerationRegistry

abbrev SourceRegistry := GenerationRegistry .source .source
abbrev IRRegistry := GenerationRegistry .ir .ir
abbrev DependencyRegistry := GenerationRegistry .dependencySet .dependency
abbrev ToolchainRegistry := GenerationRegistry .toolchain .toolchain
abbrev TargetRegistry := GenerationRegistry .target .target
abbrev SpecializationRegistry := GenerationRegistry .specialization .specialization
abbrev PolicyRegistry := GenerationRegistry .policy .policy

end DistributedCompilation
