import DistributedCompilation.Safety.Lifetime

/-!
# Distributed Compilation — reports in flight

What phase one leaves behind when it lets a report pass, and the rule by which it
is carried to the phases that follow: the report itself is a value no other
operation can reach, and what it says of the tables lasts.
-/

namespace DistributedCompilation

open Program (Keeps)

section

variable [HashFunction]

-- ---------------------------------------------------------------------------
-- Phase one
-- ---------------------------------------------------------------------------

/-- The candidate is that of the bytes. -/
def CompilationAttempt.Carries (attempt : CompilationAttempt) (bytes : Bytes) : Prop :=
  attempt.state.reported = true ∧
    attempt.candidate = { digest := sha256 bytes, size := UInt64.ofNat bytes.length }

/-- Phase one let the report pass: the claim was the expected one, the attempt was at
work, and now carries the reported bytes. -/
structure Reserved (s : State) (session : SessionId) (output : ReportOutput) (r : Reservation)
    (last : State) : Prop where
  granted : ∃ (attempt : CompilationAttempt) (compilation : CompilationRecord),
    s.attempts[output.claim.attempt]? = some attempt ∧
    s.compilations[output.claim.compilation]? = some compilation ∧
    output.claim = s.expectationFor compilation attempt ∧
    (attempt.state = .running ∨ attempt.state = .preparing) ∧
    r = s.reservationFor session output (sha256 output.bytes) compilation
  carried : ∃ next : CompilationAttempt,
    last.attempts[output.claim.attempt]? = some next ∧ next.Carries output.bytes

omit [HashFunction] in
theorem State.reservationFor_output (s : State) (session : SessionId) (output : ReportOutput)
    (candidateDigest : Digest256) (compilation : CompilationRecord) :
    (s.reservationFor session output candidateDigest compilation).output = output ∧
      (s.reservationFor session output candidateDigest compilation).candidateDigest = candidateDigest := by
  unfold State.reservationFor
  split <;> exact ⟨rfl, rfl⟩

theorem Reserved.output {s last : State} {session : SessionId} {output : ReportOutput} {r : Reservation}
    (h : Reserved s session output r last) :
    r.output = output ∧ r.candidateDigest = sha256 output.bytes := by
  obtain ⟨attempt, compilation, -, -, -, -, rfl⟩ := h.granted
  exact s.reservationFor_output session output _ compilation

/-- A reported attempt carries the same bytes ever after. -/
theorem CompilationAttempt.Continues.carries {attempt next : CompilationAttempt} {bytes : Bytes}
    (h : attempt.Continues next) (carries : attempt.Carries bytes) : next.Carries bytes := by
  obtain ⟨hreported, hcandidate⟩ := h.reported carries.1
  exact ⟨hreported, hcandidate.trans carries.2⟩

theorem wp_reserveOutput (session : SessionId) (output : ReportOutput) (i : Impl) :
    Program.wp (reserveOutput session output)
      (fun r j => Program.Returned (Reserved i.state session output · j.state) r) i := by
  have refusal {α : Type} (operation : String) (code code' : ErrorCode) (worker : WorkerId)
      (detail detail' : Bytes) {P : α → Impl → Prop} : Program.wp (do
        recordViolation operation code session worker detail
        refused code' detail' : M α) (fun r j => Program.Returned (P · j) r) i :=
    Program.wp_seq (fun _ _ => True) trivial (fun _ _ _ => trivial) fun _ _ _ => trivial
  unfold reserveOutput
  refine Still.wp_ensureOpen_bind (fun _ => ?_) fun _ => trivial
  rw [Program.wp_read_bind]
  simp only
  split
  next => exact refusal _ _ _ _ _ _
  next attempt hattempt =>
  split
  next => trivial
  next compilation hcompilation =>
  split
  next => trivial
  next record hrecord =>
  split
  next => trivial
  next =>
  split
  next => exact refusal _ _ _ _ _ _
  next =>
  split
  next => exact refusal _ _ _ _ _ _
  next hauthority =>
  split
  next => trivial
  next hstate =>
  split
  next => trivial
  next =>
  split
  next => trivial
  next =>
  have hworking : attempt.state = .running ∨ attempt.state = .preparing := by
    rcases not_and_or.mp hstate with h | h
    · exact .inl (not_not.mp h)
    · exact .inr (not_not.mp h)
  rw [onAttempt, Still.wp_onState_bind]
  have hset : (i.state.withAttempt output.claim.attempt
      (·.withCandidate output (sha256 output.bytes))).attempts[output.claim.attempt]? =
        some (attempt.withCandidate output (sha256 output.bytes)) := by
    show (i.state.attempts.modify _ _)[output.claim.attempt]? = _
    rw [Table.get_modify, if_pos rfl, hattempt]
    rfl
  refine Program.wp_seq (fun r k => r = .ok () → ∃ next : CompilationAttempt,
    k.state.attempts[output.claim.attempt]? = some next ∧ next.Carries output.bytes) ?_ ?_ fun _ _ _ => trivial
  · refine wp_orReturn (wp_transitionAttempt hset .produced) ?_ (fun _ _ _ h => by cases h) fun _ _ _ h => by cases h
    rintro k (⟨-, -, rfl⟩ | ⟨-, -, status, hr⟩)
    · intro
      refine ⟨{ attempt.withCandidate output (sha256 output.bytes) with state := .produced }, ?_, rfl, rfl⟩
      show ((i.state.withAttempt output.claim.attempt
        (·.withCandidate output (sha256 output.bytes))).attempts.modify _ _)[output.claim.attempt]? = _
      rw [Table.get_modify, if_pos rfl, hset]
      rfl
    · cases hr
  · rintro ⟨⟩ k hk
    obtain ⟨next, hnext, hcarries⟩ := hk rfl
    -- what follows only touches
    have hafter : Impl.After (fun _ => True) k.state k := ⟨trivial, .refl _⟩
    refine Still.wp_now hafter fun updatedAt j₁ h₁ _ => ?_
    refine Touched.wp_onCompilation h₁ (by intro record; rfl) fun j₂ h₂ _ => ?_
    refine Program.wp_seq (fun _ j => Impl.After (fun _ => True) k.state j)
      (Still.orReturn (Noted.persistAttempt _) j₂ h₂) (fun _ j₃ h₃ => ?_) fun _ _ _ => trivial
    refine Program.wp_seq (fun _ j => Impl.After (fun _ => True) k.state j)
      (Still.ignoring (Noted.persistCompilation _) j₃ h₃) (fun _ j₄ h₄ => ?_) fun _ _ _ => trivial
    obtain ⟨later, hlater, hcontinues⟩ := h₄.steady.attempts _ next hnext
    exact ⟨⟨attempt, compilation, hattempt, hcompilation, validateAuthority_eq_ok.mp hauthority, hworking,
      rfl⟩, later, hlater, hcontinues.carries hcarries⟩

-- ---------------------------------------------------------------------------
-- In flight
-- ---------------------------------------------------------------------------

/-- The reports between two phases. -/
def System.inFlight (sys : System) : List Reservation := sys.reserved ++ sys.validated.map (·.1)

/-- The disk and the clock answer; the tables are the same. -/
theorem System.given_state (environment : Environment) (i : Impl) :
    (System.given environment i).state = i.state := rfl

/-- A report in flight was in flight before or has just passed phase one. -/
theorem System.inFlight_step {environment : Environment} {op : Op} {sys : System} {r : Reservation}
    (h : r ∈ (System.step environment op sys).inFlight) : r ∈ sys.inFlight ∨
      ∃ (session : SessionId) (output : ReportOutput), op = .reserve session output ∧
        ((reserveOutput session output).run (System.given environment sys.impl)).1 = .ok r := by
  cases op with
  | reserve session output =>
    simp only [System.step, System.reserveStep] at h
    split at h
    next reservation impl heq =>
      simp only [System.inFlight, List.mem_append, List.mem_singleton] at h
      rcases h with (hold | rfl) | hold
      · exact .inl (List.mem_append_left _ hold)
      · exact .inr ⟨session, output, rfl, congrArg Prod.fst heq⟩
      · exact .inl (List.mem_append_right _ hold)
    next => exact .inl h
  | validate n smoke =>
    simp only [System.step, System.validateStep] at h
    split at h
    next => exact .inl h
    next reservation hreservation =>
      have hmem : reservation ∈ sys.reserved := List.mem_of_getElem? hreservation
      split at h
      next =>
        simp only [System.inFlight, List.map_append, List.map_cons, List.map_nil, List.mem_append,
          List.mem_singleton] at h
        rcases h with hold | hold | rfl
        · exact .inl (List.mem_append_left _ (List.mem_of_mem_eraseIdx hold))
        · exact .inl (List.mem_append_right _ hold)
        · exact .inl (List.mem_append_left _ hmem)
      next =>
        rcases List.mem_append.mp h with hold | hold
        · exact .inl (List.mem_append_left _ (List.mem_of_mem_eraseIdx hold))
        · exact .inl (List.mem_append_right _ hold)
  | commit n =>
    simp only [System.step, System.commitStep] at h
    split at h
    next => exact .inl h
    next reservation report hvalidated =>
      simp only [System.exclusive, System.inFlight] at h
      rcases List.mem_append.mp h with hold | hold
      · exact .inl (List.mem_append_left _ hold)
      · obtain ⟨entry, hentry, rfl⟩ := List.mem_map.mp hold
        exact .inl (List.mem_append_right _ (List.mem_map_of_mem (List.mem_of_mem_eraseIdx hentry)))
  | _ => exact .inl h

/-- What phase one establishes for a report, and lasts, holds of every report in
flight, in runs whose steps are all as `C` says. -/
theorem Runs.inFlight {C : Step → Prop} {I : Impl → Prop} [Lasting I] {P : Reservation → Impl → Prop}
    [∀ r, Lasting (P r)]
    (reserve : ∀ {step : Step} {session : SessionId} {output : ReportOutput} {r : Reservation} {j : Impl},
      C step → step.op = .reserve session output → I step.before.impl → I j →
      step.before.impl.state.Steady j.state → Reserved step.before.impl.state session output r j.state → P r j)
    {first last : System} {steps : List Step} (run : Runs first steps last) (each : ∀ step ∈ steps, C step)
    (h : I first.impl) (quiet : first.inFlight = []) : ∀ r ∈ last.inFlight, P r last.impl := by
  induction run with
  | start =>
    intro r hr
    rw [quiet] at hr
    cases hr
  | @step steps sys run environment op within ih =>
    have hbefore := ih fun step hstep => each step (List.mem_append_left _ hstep)
    have hstep := each _ (List.mem_append_right _ (List.mem_singleton_self _))
    intro r hr
    rcases System.inFlight_step hr with hold | ⟨session, output, rfl, hok⟩
    · exact Lasting.step (hbefore r hold) environment op within
    · have hnow := Lasting.step (run.lasts h) environment (.reserve session output) within
      have hafter := @Touched.reserveOutput (Impl.After (fun _ => True) sys.impl.state) _ _ session output
        (System.given environment sys.impl) ⟨trivial, .refl _⟩
      have hreserved := wp_reserveOutput session output (System.given environment sys.impl)
      unfold Program.wp at hreserved
      rw [hok] at hreserved
      have himpl : (System.step environment (.reserve session output) sys).impl =
          ((reserveOutput session output).run (System.given environment sys.impl)).2 := by
        simp only [System.step, System.reserveStep]
        split
        next heq => rw [heq]
        next heq => rw [heq]
      rw [himpl] at hnow ⊢
      exact reserve hstep rfl (run.lasts h) hnow hafter.steady hreserved

/-- A step of a run starts where the steps before it lead. -/
theorem Runs.before {first last : System} {steps : List Step} (run : Runs first steps last) :
    ∀ step ∈ steps, ∃ earlier : List Step, (∀ other ∈ earlier, other ∈ steps) ∧
      Runs first earlier step.before := by
  induction run with
  | start => exact fun _ h => absurd h List.not_mem_nil
  | @step steps sys run environment op within ih =>
    intro step hstep
    rcases List.mem_append.mp hstep with hold | hnew
    · obtain ⟨earlier, hsub, hrun⟩ := ih step hold
      exact ⟨earlier, fun other h => List.mem_append_left _ (hsub other h), hrun⟩
    · obtain rfl := List.mem_singleton.mp hnew
      exact ⟨steps, fun other h => List.mem_append_left _ h, run⟩

end

end DistributedCompilation
