import DistributedCompilation.Safety.Touched

/-!
# Distributed Compilation — what touches leave in place

Commits, authority, provenances, validations, the identity of compilations and
the binding of attempts stay; an attempt that reported keeps its candidate, and
one that holds no authority gains none.
-/

namespace DistributedCompilation

-- ---------------------------------------------------------------------------
-- Attempts
-- ---------------------------------------------------------------------------

/-- A report has been made for the attempt, or it is over. -/
def AttemptState.reported : AttemptState → Bool
  | .created | .eligible | .assigned | .preparing | .running => false
  | _ => true

/-- What any number of updates leave of an attempt. -/
structure CompilationAttempt.Continues (attempt next : CompilationAttempt) : Prop where
  frozen : next.frozen = attempt.frozen
  reported : attempt.state.reported = true →
    next.state.reported = true ∧ next.candidate = attempt.candidate
  dormant : holdsCommitAuthority attempt.state = false → holdsCommitAuthority next.state = false ∧
    (next.state = .committed → attempt.state = .committed)

namespace CompilationAttempt.Continues

theorem refl (attempt : CompilationAttempt) : attempt.Continues attempt :=
  ⟨rfl, fun h => ⟨h, rfl⟩, fun h => ⟨h, fun hdone => hdone⟩⟩

theorem trans {attempt next last : CompilationAttempt} (h : attempt.Continues next)
    (h' : next.Continues last) : attempt.Continues last where
  frozen := h'.frozen.trans h.frozen
  reported hreported := by
    obtain ⟨hnext, hcandidate⟩ := h.reported hreported
    obtain ⟨hlast, hcandidate'⟩ := h'.reported hnext
    exact ⟨hlast, hcandidate'.trans hcandidate⟩
  dormant hdormant := by
    obtain ⟨hnext, hcommitted⟩ := h.dormant hdormant
    obtain ⟨hlast, hcommitted'⟩ := h'.dormant hnext
    exact ⟨hlast, fun hdone => hcommitted (hcommitted' hdone)⟩

/-- The state machine has no way back. -/
theorem of_advances {attempt next : CompilationAttempt} (h : attempt.Advances next) :
    attempt.Continues next where
  frozen := h.frozen
  reported hreported := by
    constructor
    · rcases h.leads with hsame | hlegal
      · rw [hsame]
        exact hreported
      · revert hreported hlegal
        cases attempt.state <;> cases next.state <;> decide
    · rcases h.candidate with hsame | hstate | hstate
      · exact hsame
      · simp [hstate, AttemptState.reported] at hreported
      · simp [hstate, AttemptState.reported] at hreported
  dormant hdormant := by
    rcases h.leads with hsame | hlegal
    · rw [hsame]
      exact ⟨hdormant, fun hdone => hdone⟩
    · have hissued := h.issued
      revert hdormant hlegal hissued
      cases attempt.state <;> cases next.state <;> decide

end CompilationAttempt.Continues

-- ---------------------------------------------------------------------------
-- States
-- ---------------------------------------------------------------------------

structure State.Steady (s s' : State) : Prop where
  stable : s'.header.stable = s.header.stable
  commits : s'.commits = s.commits
  authoritative : s'.authoritative = s.authoritative
  provenances : s'.provenances = s.provenances
  validations : s'.validations = s.validations
  compilations : ∀ id : CompilationId,
    (s'.compilations[id]?).map (·.frozen) = (s.compilations[id]?).map (·.frozen)
  attempts : ∀ (id : CompilationAttemptId) (attempt : CompilationAttempt),
    s.attempts[id]? = some attempt →
      ∃ next : CompilationAttempt, s'.attempts[id]? = some next ∧ attempt.Continues next

namespace State.Steady

theorem refl (s : State) : s.Steady s :=
  ⟨rfl, rfl, rfl, rfl, rfl, fun _ => rfl, fun _ attempt h => ⟨attempt, h, .refl attempt⟩⟩

theorem trans {s s' s'' : State} (h : s.Steady s') (h' : s'.Steady s'') : s.Steady s'' where
  stable := h'.stable.trans h.stable
  commits := h'.commits.trans h.commits
  authoritative := h'.authoritative.trans h.authoritative
  provenances := h'.provenances.trans h.provenances
  validations := h'.validations.trans h.validations
  compilations id := (h'.compilations id).trans (h.compilations id)
  attempts id attempt hattempt := by
    obtain ⟨next, hnext, hcontinues⟩ := h.attempts id attempt hattempt
    obtain ⟨last, hlast, hcontinues'⟩ := h'.attempts id next hnext
    exact ⟨last, hlast, hcontinues.trans hcontinues'⟩

/-- The record of a compilation, as far as a touch does not rewrite it. -/
theorem record {s s' : State} (h : s.Steady s') {id : CompilationId} {record : CompilationRecord}
    (found : s.compilations[id]? = some record) : ∃ next : CompilationRecord,
      s'.compilations[id]? = some next ∧ next.frozen = record.frozen := by
  have hfrozen := h.compilations id
  rw [found, Option.map_some] at hfrozen
  obtain ⟨next, hnext, hsame⟩ := Option.map_eq_some_iff.mp hfrozen
  exact ⟨next, hnext, hsame⟩

theorem of_touch {s s' : State} (h : Touch s s') : s.Steady s' := by
  have keep : ∀ (id : CompilationAttemptId) (attempt : CompilationAttempt),
      s.attempts[id]? = some attempt →
        ∃ next : CompilationAttempt, s.attempts[id]? = some next ∧ attempt.Continues next :=
    fun _ attempt h => ⟨attempt, h, .refl attempt⟩
  cases h with
  | note h =>
    refine ⟨h.stable, h.commits, h.authoritative, h.provenances, h.validations, fun id => ?_, ?_⟩
    · rw [h.compilations]
    · rw [h.attempts]
      exact keep
  | record id hframe =>
    refine ⟨rfl, rfl, rfl, rfl, rfl, fun key => ?_, keep⟩
    rw [State.withCompilation, Table.get_modify]
    split
    next heq =>
      subst heq
      rw [Option.map_map]
      exact congrArg (Option.map · _) (funext hframe)
    next => rfl
  | attempt id hstep =>
    refine ⟨rfl, rfl, rfl, rfl, rfl, fun _ => rfl, fun key attempt hattempt => ?_⟩
    rw [State.withAttempt, Table.get_modify]
    split
    next heq =>
      subst heq
      rw [hattempt]
      exact ⟨_, rfl, .of_advances (hstep attempt hattempt)⟩
    next => exact ⟨attempt, hattempt, .refl attempt⟩
  | worker id _ => exact ⟨rfl, rfl, rfl, rfl, rfl, fun _ => rfl, keep⟩
  | lease id _ => exact ⟨rfl, rfl, rfl, rfl, rfl, fun _ => rfl, keep⟩
  | revoke worker reason => exact ⟨rfl, rfl, rfl, rfl, rfl, fun _ => rfl, keep⟩
  | session id _ => exact ⟨rfl, rfl, rfl, rfl, rfl, fun _ => rfl, keep⟩

/-- A live commit is one of the tables that stay. -/
theorem liveCommit {s s' : State} (h : s.Steady s') (id : CompilationId) :
    s'.liveCommit id = s.liveCommit id := by
  rw [State.liveCommit, State.liveCommit, h.commits, h.authoritative]

end State.Steady

/-- A property, and a state from which touches lead here. -/
structure Impl.After (I : Impl → Prop) (s : State) (i : Impl) : Prop where
  keeps : I i
  steady : s.Steady i.state

/-- Sections that touch leave in place what `Steady` names. -/
instance Impl.After.touched {I : Impl → Prop} [Touched I] (s : State) : Touched (Impl.After I s) where
  quiet hi hstate hwrote := ⟨Still.quiet hi.keeps hstate hwrote, hstate ▸ hi.steady⟩
  touch hi h := ⟨Touched.touch hi.keeps h, hi.steady.trans (.of_touch h)⟩

end DistributedCompilation
