import DistributedCompilation.Codec.StateRoundTrip
import DistributedCompilation.Safety.Authority
import DistributedCompilation.Safety.Claims
import DistributedCompilation.Safety.Registries
import DistributedCompilation.Safety.Restart

/-!
# Distributed Compilation — one commit

Commits, authorities and generations agree all through a lifetime that begins
with a fresh directory, or with one that a lifetime before it left behind a
snapshot of its last state.
-/

namespace DistributedCompilation

open Program (Keeps)

section

variable [HashFunction]

-- ---------------------------------------------------------------------------
-- Within a lifetime
-- ---------------------------------------------------------------------------

namespace State.Consistent

variable {s s' : State}

theorem of_touch (h : s.Consistent) (touch : Touch s s') : s'.Consistent := by
  have hcounter {s' : State} (hstable : s'.header.stable = s.header.stable) :
      s'.header.nextCommitId = s.header.nextCommitId := (congrArg StateHeader.nextCommitId hstable :)
  cases touch with
  | note note => exact h.frame' note.commits note.authoritative (hcounter note.stable) note.compilations
  | record id frozen =>
    exact h.withCompilation fun record _ => (congrArg CompilationRecord.generation (frozen record) :)
  | attempt | worker | lease | revoke | session => exact h.frame' rfl rfl rfl rfl

theorem of_change (h : s.Consistent) (keyed : s.Keyed) (change : Change s s') : s'.Consistent := by
  cases change with
  | resolve aside =>
    exact h.frame' aside.commits aside.authoritative (congrArg StateHeader.nextCommitId aside.stable :)
      aside.compilations
  | create fresh => exact h.create fresh
  | supersede found => exact h.supersede found
  | withdraw found superseded => exact h.withdraw found superseded
  | lower => exact h.withCompilation fun _ _ => rfl
  | @assign id compilation worker speculative createdAt issuedAt updatedAt found able =>
    exact (h.withCompilation (f := (·.assigned ⟨s.header.nextAttemptId⟩ updatedAt))
      fun _ _ => rfl).frame' rfl rfl rfl rfl
  | @publish id record stored validation attempt reported key producedAt committedAt found same _ _ _ _ _ free =>
    refine h.publish found free rfl ?_ (congrArg CompilationRecord.generation same :) rfl
    exact (congrArg CompilationRecord.id same :).trans (keyed.compilation id stored found)

theorem of_admission (h : s.Consistent) (admission : Admission s s') : s'.Consistent := by
  cases admission with
  | ready | enroll => exact h.frame' rfl rfl rfl rfl

instance lasting : Lasting fun i => i.state.Keyed ∧ i.state.Consistent where
  quiet hi hstate _ := hstate ▸ hi
  touch hi h := ⟨hi.1.of_touch h, State.Consistent.of_touch hi.2 h⟩
  change hi h := ⟨hi.1.of_change h, State.Consistent.of_change hi.2 hi.1 h⟩
  admission hi h := ⟨hi.1.of_admission h, State.Consistent.of_admission hi.2 h⟩

-- ---------------------------------------------------------------------------
-- From one lifetime to the next
-- ---------------------------------------------------------------------------

omit [HashFunction] in
/-- A state that is read back is as consistent as the one written. -/
theorem of_recalls (h : s.Consistent) (recalls : s.Recalls s') : s'.Consistent :=
  h.frame' recalls.commits recalls.authoritative (congrArg StateHeader.nextCommitId recalls.header)
    recalls.compilations

omit [HashFunction] in
/-- A restart leaves commits, authorities and generations alone. -/
theorem of_reopens (h : s.Consistent) (reopens : s.Reopens s') : s'.Consistent := by
  refine h.frame reopens.commits reopens.authoritative
    (congrArg StateHeader.nextCommitId reopens.durable :) fun id record hrecord => ?_
  have hfrozen := reopens.compilations id
  rw [hrecord, Option.map_some] at hfrozen
  obtain ⟨next, hnext, hsame⟩ := Option.map_eq_some_iff.mp hfrozen
  exact ⟨next, hnext, (congrArg CompilationRecord.generation hsame :)⟩

end State.Consistent

/-- The directory holds a snapshot of the state and nothing that was journaled since. -/
structure Store.Saved (store : Store) (s : State) : Prop where
  fits : (encodeState s).fits = true
  snapshot : store.snapshot = (encodeState s).bytes
  journal : store.journal = []

/-- Lifetimes from a fresh directory, or from one a lifetime left behind a snapshot of
its last state, by a close or by the end of its process. -/
inductive System.Begins : System → Prop
  | fresh {config : CoordinatorConfig} {first : System} (opened : System.Opens config {} first) : Begins first
  | reopened {first last closed next : System} {steps : List Step} {config : CoordinatorConfig}
      (begins : Begins first) (run : Runs first steps last) (stops : last.Stops closed)
      (saved : closed.impl.store.Saved last.impl.state) (opened : closed.Opens config next) : Begins next

theorem Runs.reachable {first last : System} {steps : List Step} (run : Runs first steps last)
    (h : first.Reachable) : last.Reachable := by
  induction run with
  | start => exact h
  | step run environment op within ih => exact ih.step environment op

theorem System.Opens.reachable {config : CoordinatorConfig} {closed first : System}
    (opened : closed.Opens config first) (h : closed.Reachable) : first.Reachable := by
  obtain ⟨-, -, environment, rfl, -⟩ := opened
  exact h.step environment _

theorem System.Stops.reachable {sys closed : System} (stops : sys.Stops closed) (h : sys.Reachable) :
    closed.Reachable := by
  cases stops with
  | close environment => exact h.step environment .close
  | crash n => exact h.crash n

theorem System.Begins.reachable {first : System} (begins : first.Begins) : first.Reachable := by
  induction begins with
  | fresh opened => exact opened.reachable .fresh
  | reopened _ run stops _ opened ih => exact opened.reachable (stops.reachable (run.reachable ih))

/-- What is recovered from a snapshot alone is what was written. -/
theorem Store.Saved.recovered {store : Store} {saved s : State} (h : store.Saved saved) (listed : saved.Listed)
    (keyed : saved.Keyed) (consistent : saved.Consistent) (hrecover : store.recover = .ok s) :
    saved.Recalls s := by
  obtain ⟨base, hbase, hreplay⟩ := bind_eq_ok_iff.mp hrecover
  rw [h.journal] at hreplay
  cases hreplay
  unfold decodeSnapshot at hbase
  have hne : store.snapshot.isEmpty = false := by
    rw [h.snapshot]
    rfl
  rw [hne, h.snapshot] at hbase
  simp only [Bool.false_eq_true, if_false] at hbase
  split at hbase
  next decoded hdecode =>
    cases hbase
    exact recalls_of_decodeState listed keyed.compilation consistent.keyed (Record.eachFits_of_fits h.fits) hdecode
  next => cases hbase

omit [HashFunction] in
theorem State.Keyed.initial : State.Keyed {} where
  worker _ _ h := by
    rw [Table.get_empty] at h
    cases h
  compilation _ _ h := by
    rw [Table.get_empty] at h
    cases h

/-- What a lifetime opens over is consistent, then it begins consistent. -/
theorem System.Opens.consistent {config : CoordinatorConfig} {closed first : System}
    (opened : closed.Opens config first)
    (recovers : ∀ s, closed.impl.store.recover = .ok s → s.Consistent) :
    first.impl.state.Keyed ∧ first.impl.state.Consistent := by
  obtain ⟨recovered, hbooted, hreopens, hrecover, hfresh⟩ := opened.opening.recovered
  refine ⟨hreopens.keyed hbooted.toKeyed, State.Consistent.of_reopens ?_ hreopens⟩
  cases hpersists : config.enablePersistence with
  | true => exact recovers recovered (hrecover hpersists)
  | false =>
    rw [hfresh hpersists]
    exact .initial

/-- A lifetime begins consistent. -/
theorem System.Begins.consistent {first : System} (begins : first.Begins) :
    first.impl.state.Keyed ∧ first.impl.state.Consistent := by
  induction begins with
  | fresh opened =>
    refine opened.consistent fun s hrecover => ?_
    cases hrecover
    exact .initial
  | @reopened first last closed next steps config begins run stops saved opened ih =>
    obtain ⟨hkeyed, hconsistent⟩ := run.lasts
      (I := fun i => i.state.Keyed ∧ i.state.Consistent) ih
    refine opened.consistent fun s hrecover => hconsistent.of_recalls ?_
    exact saved.recovered (run.reachable begins.reachable).recorded.listed hkeyed hconsistent hrecover

end

theorem volatileFirst_begins : volatileFirst.Begins := .fresh volatileFirst_opens_closed

end DistributedCompilation
