import DistributedCompilation.Safety.Claims

/-!
# Distributed Compilation — bounded duplication

A resubmission takes a running compilation back to `Pending`, and a failing
sibling makes it eligible again. What bounds the attempts that may still commit
is therefore not the state of the compilation but the list of its attempts: every
one of them is found there, and `pump` goes through it (`State.Shared`).
-/

namespace DistributedCompilation

-- ---------------------------------------------------------------------------
-- Two kinds
-- ---------------------------------------------------------------------------

/-- There is no third kind. -/
theorem length_le_two_of_pairwise {α : Type} {f : α → Bool} {xs : List α} (h : xs.Pairwise (f · ≠ f ·)) :
    xs.length ≤ 2 := by
  match xs, h with
  | [], _ => exact Nat.zero_le _
  | [_], _ => exact Nat.le_succ _
  | [_, _], _ => exact Nat.le_refl _
  | a :: b :: c :: rest, h =>
    obtain ⟨ha, hb⟩ := List.pairwise_cons.mp h
    have hab := ha b (List.mem_cons_self)
    have hac := ha c (List.mem_cons_of_mem _ List.mem_cons_self)
    have hbc := (List.pairwise_cons.mp hb).1 c List.mem_cons_self
    generalize f a = x, f b = y, f c = z at hab hac hbc
    cases x <;> cases y <;> cases z <;> contradiction

theorem length_filter_le_one_of_pairwise {α : Type} {f : α → Bool} {xs : List α}
    (h : xs.Pairwise (f · ≠ f ·)) : (xs.filter (!f ·)).length ≤ 1 := by
  have hfiltered := h.filter (!f ·)
  match hxs : xs.filter (!f ·), hfiltered with
  | [], _ => exact Nat.zero_le _
  | [_], _ => exact Nat.le_refl _
  | a :: b :: rest, h =>
    have ha : f a = false := by
      have hmem := List.mem_filter.mp (hxs ▸ List.mem_cons_self : a ∈ xs.filter (!f ·))
      simpa using hmem.2
    have hb : f b = false := by
      have hmem := List.mem_filter.mp (hxs ▸ List.mem_cons_of_mem _ List.mem_cons_self : b ∈ xs.filter (!f ·))
      simpa using hmem.2
    have hab := (List.pairwise_cons.mp h).1 b List.mem_cons_self
    exact absurd (ha.trans hb.symm) hab

section

variable [HashFunction]

-- ---------------------------------------------------------------------------
-- Attempts that may still commit
-- ---------------------------------------------------------------------------

/-- The attempts of a compilation that may still commit. -/
def State.liveAttempts (s : State) (id : CompilationId) : List CompilationAttempt :=
  s.attempts.values.filter fun attempt => attempt.compilation = id ∧ holdsCommitAuthority attempt.state = true

/-- An attempt that may still commit. -/
structure State.Live (s : State) (key : CompilationAttemptId) (attempt : CompilationAttempt) : Prop where
  found : s.attempts[key]? = some attempt
  holds : holdsCommitAuthority attempt.state = true

/-- Attempts that may still commit are listed with their compilation, and two of the
same compilation are a first one and its duplicate elsewhere. -/
structure State.Shared (s : State) : Prop where
  listed : ∀ (key : CompilationAttemptId) (attempt : CompilationAttempt), s.Live key attempt →
    ∃ record : CompilationRecord, s.compilations[attempt.compilation]? = some record ∧ key ∈ record.attempts
  apart : ∀ (key key' : CompilationAttemptId) (attempt attempt' : CompilationAttempt), s.Live key attempt →
    s.Live key' attempt' → attempt.compilation = attempt'.compilation → key ≠ key' →
      attempt.speculative ≠ attempt'.speculative ∧ attempt.worker ≠ attempt'.worker

/-- Compilations keep the attempts they list. -/
def State.KeepsListed (s s' : State) : Prop :=
  ∀ (id : CompilationId) (record : CompilationRecord), s.compilations[id]? = some record →
    ∃ next : CompilationRecord, s'.compilations[id]? = some next ∧ ∀ key ∈ record.attempts, key ∈ next.attempts

namespace State.KeepsListed

omit [HashFunction]

variable {s s' : State}

theorem of_compilations (h : s'.compilations = s.compilations) : s.KeepsListed s' :=
  fun _ record hrecord => ⟨record, h ▸ hrecord, fun _ hkey => hkey⟩

theorem modify {id : CompilationId} {f : CompilationRecord → CompilationRecord}
    (hf : ∀ record : CompilationRecord, ∀ key ∈ record.attempts, key ∈ (f record).attempts)
    (h : s'.compilations = s.compilations.modify id f) : s.KeepsListed s' := by
  intro key record hrecord
  rw [h, Table.get_modify]
  split
  next hkey =>
    subst hkey
    exact ⟨f record, by rw [hrecord]; rfl, hf record⟩
  next => exact ⟨record, hrecord, fun _ hkey => hkey⟩

end State.KeepsListed

namespace State.Shared

variable {s s' : State}

omit [HashFunction] in
/-- Attempts that may still commit come from ones that might. -/
theorem mono (h : s.Shared) (keeps : s.KeepsListed s')
    (live : ∀ (key : CompilationAttemptId) (next : CompilationAttempt), s'.Live key next →
      ∃ attempt : CompilationAttempt, s.Live key attempt ∧ next.frozen = attempt.frozen) : s'.Shared where
  listed key next hnext := by
    obtain ⟨attempt, hattempt, hfrozen⟩ := live key next hnext
    obtain ⟨record, hrecord, hkey⟩ := h.listed key attempt hattempt
    obtain ⟨record', hrecord', hlisted⟩ := keeps _ record hrecord
    have hcompilation : next.compilation = attempt.compilation :=
      (congrArg CompilationAttempt.compilation hfrozen :)
    exact ⟨record', hcompilation ▸ hrecord', hlisted key hkey⟩
  apart key key' next next' hnext hnext' hcompilation hne := by
    obtain ⟨attempt, hattempt, hfrozen⟩ := live key next hnext
    obtain ⟨attempt', hattempt', hfrozen'⟩ := live key' next' hnext'
    have hleft : next.compilation = attempt.compilation := (congrArg CompilationAttempt.compilation hfrozen :)
    have hright : next'.compilation = attempt'.compilation := (congrArg CompilationAttempt.compilation hfrozen' :)
    have hsame : attempt.compilation = attempt'.compilation := hleft.symm.trans (hcompilation.trans hright)
    obtain ⟨hspeculative, hworker⟩ := h.apart key key' attempt attempt' hattempt hattempt' hsame hne
    rw [show next.speculative = attempt.speculative from (congrArg CompilationAttempt.speculative hfrozen :),
      show next'.speculative = attempt'.speculative from (congrArg CompilationAttempt.speculative hfrozen' :),
      show next.worker = attempt.worker from (congrArg CompilationAttempt.worker hfrozen :),
      show next'.worker = attempt'.worker from (congrArg CompilationAttempt.worker hfrozen' :)]
    exact ⟨hspeculative, hworker⟩

omit [HashFunction] in
theorem of_attempts (h : s.Shared) (keeps : s.KeepsListed s') (attempts : s'.attempts = s.attempts) : s'.Shared :=
  h.mono keeps fun _ next hnext => ⟨next, ⟨attempts ▸ hnext.found, hnext.holds⟩, rfl⟩

theorem of_touch (h : s.Shared) (touch : Touch s s') : s'.Shared := by
  have keeps : s.KeepsListed s' := by
    cases touch with
    | note note => exact .of_compilations note.compilations
    | record id frozen =>
      refine .modify (fun record key hkey => ?_) rfl
      have hattempts := congrArg CompilationRecord.attempts (frozen record)
      simp only [CompilationRecord.frozen] at hattempts
      rw [hattempts]
      exact hkey
    | attempt | worker | lease | revoke | session => exact .of_compilations rfl
  refine h.mono keeps fun key next hnext => ?_
  obtain ⟨attempt, hattempt, hcontinues⟩ := touch.attempt_of hnext.found
  refine ⟨attempt, ⟨hattempt, ?_⟩, hcontinues.frozen⟩
  -- authority is not regained
  by_contra hdormant
  have hlost := (hcontinues.dormant (Bool.eq_false_of_not_eq_true hdormant)).1
  rw [hnext.holds] at hlost
  cases hlost

omit [HashFunction] in
/-- Where there is room for an attempt, its assignment leaves them apart. -/
theorem assign (h : s.Shared) (keyed : s.Keyed) {id : CompilationId} {compilation : CompilationRecord}
    {worker : WorkerRecord} {speculative : Bool} {createdAt issuedAt updatedAt : UnixMillis}
    (found : s.compilations[id]? = some compilation) (vacant : s.Vacant id speculative worker.id) :
    (s.assign id (s.attemptFor worker compilation speculative createdAt)
      ((s.attemptFor worker compilation speculative createdAt).leaseOf issuedAt) updatedAt).Shared := by
  have hid := keyed.compilation id compilation found
  have fresh : ∀ {key : CompilationAttemptId} {next : CompilationAttempt},
      (s.assign id (s.attemptFor worker compilation speculative createdAt)
        ((s.attemptFor worker compilation speculative createdAt).leaseOf issuedAt) updatedAt).Live key next →
      key = ⟨s.header.nextAttemptId⟩ ∧ next = s.attemptFor worker compilation speculative createdAt ∨
        key ≠ ⟨s.header.nextAttemptId⟩ ∧ s.Live key next := by
    intro key next hnext
    have hfound := hnext.found
    rw [State.assign, Table.get_insert] at hfound
    split at hfound
    next hkey => exact .inl ⟨hkey.symm, (Option.some.inj hfound).symm⟩
    next hkey => exact .inr ⟨Ne.symm hkey, hfound, hnext.holds⟩
  have keeps : s.KeepsListed (s.assign id (s.attemptFor worker compilation speculative createdAt)
      ((s.attemptFor worker compilation speculative createdAt).leaseOf issuedAt) updatedAt) :=
    @KeepsListed.modify s _ id (·.assigned ⟨s.header.nextAttemptId⟩ updatedAt)
      (fun _ _ hkey => List.mem_append_left _ hkey) rfl
  -- an older one of the compilation is what the new one found room beside
  have beside : ∀ {key : CompilationAttemptId} {attempt : CompilationAttempt}, s.Live key attempt →
      attempt.compilation = compilation.id →
      speculative = true ∧ attempt.speculative = false ∧ attempt.worker ≠ worker.id := by
    intro key attempt hlive hcompilation
    obtain ⟨record, hrecord, hkey⟩ := h.listed key attempt hlive
    rw [hcompilation, hid] at hrecord
    obtain ⟨hduplicate, hfirst, hworker⟩ := vacant record hrecord key hkey attempt hlive.found hlive.holds
    exact ⟨hduplicate, hfirst, hworker keyed.worker⟩
  constructor
  · intro key next hnext
    rcases fresh hnext with ⟨rfl, rfl⟩ | ⟨-, hold⟩
    · refine ⟨compilation.assigned ⟨s.header.nextAttemptId⟩ updatedAt, ?_, ?_⟩
      · show (s.compilations.modify id _)[compilation.id]? = _
        rw [Table.get_modify, if_pos hid.symm, found]
        rfl
      · exact List.mem_append_right _ (List.mem_singleton_self _)
    · obtain ⟨record, hrecord, hkey⟩ := h.listed key next hold
      obtain ⟨record', hrecord', hlisted⟩ := keeps _ record hrecord
      exact ⟨record', hrecord', hlisted key hkey⟩
  · intro key key' next next' hnext hnext' hcompilation hne
    rcases fresh hnext with ⟨rfl, rfl⟩ | ⟨-, hold⟩
    · rcases fresh hnext' with ⟨rfl, -⟩ | ⟨-, hold'⟩
      · exact absurd rfl hne
      · obtain ⟨rfl, hfirst, hworker⟩ := beside hold' hcompilation.symm
        rw [hfirst]
        exact ⟨Bool.noConfusion, hworker.symm⟩
    · rcases fresh hnext' with ⟨rfl, rfl⟩ | ⟨-, hold'⟩
      · obtain ⟨rfl, hfirst, hworker⟩ := beside hold hcompilation
        rw [hfirst]
        exact ⟨Bool.noConfusion, hworker⟩
      · exact h.apart key key' next next' hold hold' hcompilation hne

theorem of_change (h : s.Shared) (keyed : s.Keyed) (change : Change s s') : s'.Shared := by
  cases change with
  | resolve aside => exact h.of_attempts (.of_compilations aside.compilations) aside.attempts
  | @create request unit createdAt fresh =>
    refine h.of_attempts (fun key record hrecord => ⟨record, ?_, fun _ hkey => hkey⟩) rfl
    show (s.compilations.insert _ _)[key]? = some record
    rw [Table.get_insert, if_neg]
    · exact hrecord
    · rintro rfl
      change s.compilations[deriveCompilationId unit.identityDigest]? = some record at hrecord
      rw [fresh] at hrecord
      cases hrecord
  | @supersede id =>
    refine h.of_attempts (@KeepsListed.modify s _ id (fun record =>
      { record with generation := record.generation.next }) (fun _ _ hkey => hkey) ?_) ?_
    · unfold State.supersede
      simp only
      split <;> rfl
    · unfold State.supersede
      simp only
      split <;> rfl
  | withdraw | publish => exact h.of_attempts (.of_compilations rfl) rfl
  | lower id index =>
    exact h.of_attempts (@KeepsListed.modify s _ id (fun record => { record with unitIndex := index })
      (fun _ _ hkey => hkey) rfl) rfl
  | @assign id compilation worker speculative createdAt issuedAt updatedAt found able vacant =>
    exact h.assign keyed found vacant

omit [HashFunction] in
theorem of_admission (h : s.Shared) (admission : Admission s s') : s'.Shared := by
  cases admission with
  | ready | enroll => exact h.of_attempts (.of_compilations rfl) rfl

instance lasting : Lasting fun i => i.state.Keyed ∧ i.state.Shared where
  quiet hi hstate _ := hstate ▸ hi
  touch hi h := ⟨hi.1.of_touch h, State.Shared.of_touch hi.2 h⟩
  change hi h := ⟨hi.1.of_change h, State.Shared.of_change hi.2 hi.1 h⟩
  admission hi h := ⟨hi.1.of_admission h, State.Shared.of_admission hi.2 h⟩

omit [HashFunction] in
/-- Nobody that may still commit gets over a restart. -/
theorem of_fenced (h : s.Fenced) : s.Shared := by
  have none {key : CompilationAttemptId} {attempt : CompilationAttempt} (hlive : s.Live key attempt) : False := by
    have hlost := h.attempts key attempt hlive.found
    rw [hlive.holds] at hlost
    cases hlost
  exact ⟨fun _ _ hlive => (none hlive).elim, fun _ _ _ _ hlive => (none hlive).elim⟩

omit [HashFunction] in
/-- Attempts of one compilation that may still commit differ in kind and worker. -/
theorem pairwise_liveAttempts (h : s.Shared) (id : CompilationId) :
    (s.liveAttempts id).Pairwise fun attempt attempt' =>
      attempt.speculative ≠ attempt'.speculative ∧ attempt.worker ≠ attempt'.worker := by
  rw [liveAttempts, List.pairwise_filter]
  refine Table.pairwise_values fun key key' attempt attempt' hattempt hattempt' hne hlive hlive' => ?_
  simp only [decide_eq_true_eq] at hlive hlive'
  exact h.apart key key' attempt attempt' ⟨hattempt, hlive.2⟩ ⟨hattempt', hlive'.2⟩
    (hlive.1.trans hlive'.1.symm) hne

end State.Shared

end

end DistributedCompilation
