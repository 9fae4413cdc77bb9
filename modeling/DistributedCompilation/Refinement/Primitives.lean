import DistributedCompilation.Protocol.Move

/-!
# Distributed Compilation — sections as moves

`Does R config s m Q`: run at the tables `s`, the section `m` makes steps of `R`
and ends as `Q` says, outcome and tables. The rules follow the program text;
every exit is an end, so a section that leaves early has made the steps up to
there. How many journal records a state counts is left out of its tables.
-/

namespace DistributedCompilation

open Program (wp)

variable [HashFunction] {permits : Hazard → State → Prop}

/-- A relation that the moves a section makes belong to. -/
class Steps (permits : outParam (Hazard → State → Prop)) (R : Impl → Impl → Prop) : Prop where
  refl : ∀ i, R i i
  trans : ∀ {i i' i''}, R i i' → R i' i'' → R i i''
  move : ∀ {i i'}, Move permits i i' → R i i'

instance : Steps permits (Moves permits) where
  refl _ := .refl
  trans := .trans
  move := .single

instance : Steps permits (Turns permits) where
  refl _ := .refl
  trans := .trans
  move h := .single (.move h)

/-- The coordinator is configured and at these tables. -/
structure Impl.At (config : CoordinatorConfig) (s : State) (i : Impl) : Prop where
  tables : ∃ n, i.state = s.recount n
  config : i.config = config

omit [HashFunction] in
theorem Impl.at_self (i : Impl) : i.At i.config i.state :=
  ⟨⟨i.state.header.recordsSinceSnapshot, rfl⟩, rfl⟩

/-- A section that makes steps of `R` from the tables `s` and ends in `Q`. -/
def Does {α : Type} (R : Impl → Impl → Prop) (config : CoordinatorConfig) (s : State) (m : M α)
    (Q : Except Fault α → State → Prop) : Prop :=
  ∀ i : Impl, i.At config s →
    wp m (fun r i' => R i i' ∧ ∃ s', i'.At config s' ∧ Q r s') i

-- ---------------------------------------------------------------------------
-- Outcomes of an append
-- ---------------------------------------------------------------------------

/-- How `persist` ends. -/
inductive Persisted (e : Entity) (i : Impl) : Except Fault (Result Unit) → Impl → Prop
  | thrown (fault : Fault) :
      Persisted e i (.error fault) { i with store := i.store.losing }
  | disabled (disabled : i.config.enablePersistence = false) :
      Persisted e i (.ok (.ok ())) i
  | failed (status : Status) (io : List Bool) (enabled : i.config.enablePersistence = true) :
      Persisted e i (.ok (.error status)) { i with io, store := i.store.losing }
  | written (io : List Bool) (fits : e.record.fits = true)
      (enabled : i.config.enablePersistence = true) :
      Persisted e i (.ok (.ok ()))
        { i with io, state := i.state.counted, store := i.store.appended e }

omit [HashFunction] in
theorem append_run (type : RecordType) (payload : Bytes) (i : Impl) :
    (∃ status io, (append type payload).run i = (.ok (.error status), { i with io })) ∨
    ∃ io, (append type payload).run i = (.ok (.ok ()), { i with
      io, store := { i.store with journal := i.store.journal ++ [(type, payload)] } }) := by
  simp only [append, Program.run, Program.bind_apply, Program.read, Program.andThen]
  split
  next =>
    split
    next => exact .inl ⟨_, i.io, rfl⟩
    next =>
      have hio : ioSucceeds i = (.ok (i.io.headD true), { i with io := i.io.tail }) := rfl
      simp only [Program.bind_apply, hio, Program.andThen]
      split
      next => exact .inr ⟨i.io.tail, rfl⟩
      next => exact .inl ⟨_, i.io.tail, rfl⟩
  next => exact .inl ⟨_, i.io, rfl⟩

omit [HashFunction] in
theorem persist_persisted (e : Entity) (i : Impl) :
    Persisted e i ((persist e).run i).1 ((persist e).run i).2 := by
  unfold persist writes
  by_cases hfits : e.record.fits = true
  · simp only [hfits, if_true]
    by_cases henabled : i.config.enablePersistence = true
    · have hrun : ∀ m : M (Result Unit), (do
          let i ← Program.read
          if i.config.enablePersistence then m else pure (.ok ()) : M (Result Unit)).run i =
            m.run i := by
        intro m
        show (if i.config.enablePersistence then m else pure (.ok ()) : M (Result Unit)) i = m i
        rw [if_pos henabled]
      rw [hrun]
      obtain ⟨status, io, happend⟩ | ⟨io, happend⟩ := append_run e.type e.record.bytes i <;>
        simp only [Program.run, Program.bind_apply] at happend ⊢ <;> rw [happend]
      · exact .failed status io henabled
      · exact .written io hfits henabled
    · have hrun : ∀ m : M (Result Unit), (do
          let i ← Program.read
          if i.config.enablePersistence then m else pure (.ok ()) : M (Result Unit)).run i =
            (.ok (.ok ()), i) := by
        intro m
        show (if i.config.enablePersistence then m else pure (.ok ()) : M (Result Unit)) i = _
        rw [if_neg henabled]
        rfl
      rw [hrun]
      exact .disabled (by simpa using henabled)
  · simp only [hfits]
    exact .thrown _

namespace Does

variable {α β : Type} {R : Impl → Impl → Prop} {config : CoordinatorConfig} {s : State} {m : M α}
  {f : α → M β}

-- ---------------------------------------------------------------------------
-- Structure
-- ---------------------------------------------------------------------------

omit [HashFunction] in
theorem mono {Q Q' : Except Fault α → State → Prop} (h : Does R config s m Q)
    (hQ : ∀ r s', Q r s' → Q' r s') : Does R config s m Q' := by
  intro i hi
  obtain ⟨hr, s', hs', hq⟩ := h i hi
  exact ⟨hr, s', hs', hQ _ _ hq⟩

omit [HashFunction] in
/-- Sections that run alike at these tables. -/
theorem congr {m' : M α} {Q : Except Fault α → State → Prop}
    (hrun : ∀ i : Impl, i.At config s → m.run i = m'.run i) (h : Does R config s m' Q) :
    Does R config s m Q := by
  intro i hi
  have := h i hi
  rwa [wp, ← hrun i hi] at this

omit [HashFunction] in
theorem bind_assoc {γ : Type} {g : γ → M α} {n : M γ} {Q : Except Fault β → State → Prop}
    (h : Does R config s (n >>= fun c => g c >>= f) Q) : Does R config s (n >>= g >>= f) Q := by
  rwa [LawfulMonad.bind_assoc]

omit [HashFunction] in
/-- Reading the tables; the count is not looked at. -/
theorem getState_bind {f : State → M β} {Q : Except Fault β → State → Prop}
    (h : Does R config s (f s) Q) (hf : ∀ n, f (s.recount n) = f s := by intro; rfl) :
    Does R config s (getState >>= f) Q := by
  refine congr (fun i hi => ?_) h
  obtain ⟨n, hn⟩ := hi.tables
  show (f i.state).run i = _
  rw [hn, hf]

omit [HashFunction] in
theorem read_bind {f : Impl → M β} {Q : Except Fault β → State → Prop}
    (h : ∀ i : Impl, i.At config s → Does R config s (f i) Q) :
    Does R config s (Program.read >>= f) Q := fun i hi => h i hi i hi

variable [Steps permits R]

include permits

theorem pure {a : α} {Q : Except Fault α → State → Prop} (h : Q (.ok a) s) :
    Does R config s (Pure.pure a : M α) Q := fun i hi => ⟨Steps.refl i, s, hi, h⟩

theorem leave {e : Fault} {Q : Except Fault α → State → Prop} (h : Q (.error e) s) :
    Does R config s (Program.leave e : M α) Q := fun i hi => ⟨Steps.refl i, s, hi, h⟩

theorem bind_leave {e : Fault} {Q : Except Fault β → State → Prop} (h : Q (.error e) s) :
    Does R config s ((Program.leave e : M α) >>= f) Q := fun i hi => ⟨Steps.refl i, s, hi, h⟩

theorem bind {P : Except Fault α → State → Prop} {Q : Except Fault β → State → Prop}
    (hm : Does R config s m P) (hok : ∀ a s', P (.ok a) s' → Does R config s' (f a) Q)
    (herr : ∀ e s', P (.error e) s' → Q (.error e) s') : Does R config s (m >>= f) Q := by
  intro i hi
  refine Program.wp_seq _ (hm i hi) ?_ ?_
  · rintro a i' ⟨hr, s', hs', hp⟩
    obtain ⟨hr', hq⟩ := hok a s' hp i' hs'
    exact ⟨Steps.trans hr hr', hq⟩
  · rintro e i' ⟨hr, s', hs', hp⟩
    exact ⟨hr, s', hs', herr e s' hp⟩

/-- A loop whose rounds keep `P`. -/
theorem forEach {xs : List α} {body : α → M Unit} {P : State → Prop}
    {Q : Except Fault Unit → State → Prop} (hP : P s)
    (hbody : ∀ x ∈ xs, ∀ s', P s' → Does R config s' (body x) fun _ s'' => P s'')
    (hend : ∀ r s', P s' → Q r s') :
    Does R config s (Program.forEach xs body) Q := by
  induction xs generalizing s with
  | nil => exact pure (hend _ s hP)
  | cons x xs ih =>
    refine bind (hbody x List.mem_cons_self s hP) (fun _ s' hs' => ?_) fun e s' hs' => hend _ s' hs'
    exact ih hs' fun y hy => hbody y (List.mem_cons_of_mem _ hy)

/-- A loop whose round for `x` establishes `D x`, which later rounds keep. -/
theorem forEach_done {xs : List α} {body : α → M Unit} {P : State → Prop} {D : α → State → Prop}
    (hP : P s)
    (hbody : ∀ x ∈ xs, ∀ s', P s' → Does R config s' (body x) fun r s'' =>
      P s'' ∧ (∀ y, D y s' → D y s'') ∧ (r = .ok () → D x s'')) :
    Does R config s (Program.forEach xs body) fun r s' =>
      P s' ∧ (∀ y, D y s → D y s') ∧ (r = .ok () → ∀ x ∈ xs, D x s') := by
  induction xs generalizing s with
  | nil => exact pure ⟨hP, fun _ h => h, by simp⟩
  | cons x xs ih =>
    refine bind (hbody x List.mem_cons_self s hP) (fun _ s' ⟨hs', hkeep, hdone⟩ => ?_)
      fun e s' ⟨hs', hkeep, _⟩ => ⟨hs', hkeep, nofun⟩
    refine mono (ih hs' fun y hy => hbody y (List.mem_cons_of_mem _ hy)) ?_
    rintro r s'' ⟨hs'', hkeep', hdone'⟩
    refine ⟨hs'', fun y hy => hkeep' y (hkeep y hy), fun hr y hy => ?_⟩
    rcases List.mem_cons.mp hy with rfl | hy
    · exact hkeep' y (hdone rfl)
    · exact hdone' hr y hy

theorem collect {xs : List α} {body : α → M (List β)} {P : State → Prop}
    {Q : Except Fault (List β) → State → Prop} (hP : P s)
    (hbody : ∀ x ∈ xs, ∀ s', P s' → Does R config s' (body x) fun _ s'' => P s'')
    (hend : ∀ r s', P s' → Q r s') : Does R config s (Program.collect xs body) Q := by
  induction xs generalizing s Q with
  | nil => exact pure (hend _ s hP)
  | cons x xs ih =>
    refine bind (hbody x List.mem_cons_self s hP) (fun out s' hs' => ?_) fun e s' hs' => hend _ s' hs'
    refine bind (ih (Q := fun _ s'' => P s'') hs'
      (fun y hy => hbody y (List.mem_cons_of_mem _ hy)) fun _ _ h => h) (fun rest s'' h => ?_)
      fun e s'' h => hend _ s'' h
    exact pure (hend _ s'' h)

-- ---------------------------------------------------------------------------
-- Primitives
-- ---------------------------------------------------------------------------

section Primitives

variable {Q : Except Fault β → State → Prop}

/-- An update of what is outside the state and the journal. -/
theorem update_bind {g : Impl → Impl} {f : Unit → M β} (same : ∀ i, SameStore i (g i))
    (h : Does R config s (f ()) Q) : Does R config s (Program.update g >>= f) Q := by
  intro i hi
  obtain ⟨hr, hq⟩ := h (g i) ⟨(same i).state ▸ hi.tables, (same i).config.trans hi.config⟩
  exact ⟨Steps.trans (Steps.move (.quiet (same i))) hr, hq⟩

theorem now_bind {f : UnixMillis → M β} (h : ∀ t, Does R config s (f t) Q) :
    Does R config s (now >>= f) Q := fun i hi =>
  update_bind (g := fun i => { i with readings := i.readings.tail })
    (f := fun _ => f (i.readings.headD 0)) (fun _ => ⟨rfl, rfl, rfl, rfl, rfl, rfl, rfl⟩) (h _) i hi

theorem io_bind {f : Bool → M β} (h : ∀ b, Does R config s (f b) Q) :
    Does R config s (ioSucceeds >>= f) Q := fun i hi =>
  update_bind (g := fun i => { i with io := i.io.tail })
    (f := fun _ => f (i.io.headD true)) (fun _ => ⟨rfl, rfl, rfl, rfl, rfl, rfl, rfl⟩) (h _) i hi

/-- An act that touches no mirrored table. -/
theorem act_bind {g : State → State} {f : Unit → M β}
    (act : ∀ n, Act permits (s.recount n) (g (s.recount n))) (mirrored : Mirrored s (g s))
    (h : Does R config (g s) (f ()) Q) (comm : ∀ n, g (s.recount n) = (g s).recount n := by
      intro; rfl) :
    Does R config s (onState g >>= f) Q := by
  intro i hi
  obtain ⟨n, hn⟩ := hi.tables
  have hmove : Move permits i { i with state := g i.state } := by
    refine .act (hn ▸ act n) ?_
    rw [hn, comm]
    exact ⟨mirrored.commits, mirrored.authoritative, mirrored.cacheEntries, mirrored.cacheIndex⟩
  obtain ⟨hr, hq⟩ := h { i with state := g i.state } ⟨⟨n, by rw [← comm, ← hn]⟩, hi.config⟩
  exact ⟨Steps.trans (Steps.move hmove) hr, hq⟩

/-- The same as the last statement of a section. -/
theorem act {g : State → State} {Q : Except Fault Unit → State → Prop}
    (act : ∀ n, Act permits (s.recount n) (g (s.recount n))) (mirrored : Mirrored s (g s))
    (h : Q (.ok ()) (g s)) (comm : ∀ n, g (s.recount n) = (g s).recount n := by intro; rfl) :
    Does R config s (onState g) Q := by
  have : Does R config s (onState g >>= Pure.pure) Q := act_bind act mirrored (pure h) comm
  rwa [bind_pure] at this

theorem ensureOpen_bind {f : Unit → M β} (h : Does R config s (f ()) Q) (herr : ∀ e, Q (.error e) s) :
    Does R config s (ensureOpen >>= f) Q := by
  refine bind (P := fun _ s' => s' = s) (read_bind fun i _ => ?_) ?_ ?_
  · split
    · exact pure rfl
    · exact leave rfl
  · rintro _ _ rfl
    exact h
  · rintro e _ rfl
    exact herr e

theorem orLeave {r : Result α} {Q : Except Fault α → State → Prop}
    (hok : ∀ a, r = .ok a → Q (.ok a) s) (herr : ∀ status, Q (.error (.status status)) s) :
    Does R config s (orLeave r) Q := by
  cases r with
  | ok a => exact pure (hok a rfl)
  | error status => exact leave (herr status)

theorem orLeave_bind {r : Result α} (hok : ∀ a, r = .ok a → Does R config s (f a) Q)
    (herr : ∀ e, Q (.error e) s) :
    Does R config s (DistributedCompilation.orLeave r >>= f) Q :=
  bind (P := fun o s' => s' = s ∧ ∀ a, o = .ok a → r = .ok a)
    (orLeave (fun a ha => ⟨rfl, by rintro b ⟨⟩; exact ha⟩) fun _ => ⟨rfl, nofun⟩)
    (fun a s' ⟨hs, hr⟩ => hs ▸ hok a (hr a rfl)) fun e s' ⟨hs, _⟩ => hs ▸ herr e

theorem orThrow_bind {r : Except Fault α} (hok : ∀ a, r = .ok a → Does R config s (f a) Q)
    (herr : ∀ e, Q (.error e) s) :
    Does R config s (orThrow r >>= f) Q := by
  cases r with
  | ok a => exact hok a rfl
  | error e => exact bind_leave (herr e)

end Primitives

-- ---------------------------------------------------------------------------
-- Persistence
-- ---------------------------------------------------------------------------

section Persistence

variable {Q : Except Fault β → State → Prop}

/-- An act followed by the append of the entity it changed: the tables change,
whatever becomes of the append. -/
theorem act_persist_bind {g : State → State} {e : Entity} {f : Result Unit → M β}
    (act : ∀ n, Acts permits (s.recount n) (g (s.recount n))) (records : e.Records s (g s))
    (backed : ∀ n, e.Backed permits ((g s).recount n))
    (hok : ∀ status, Does R config (g s) (f status) Q) (herr : ∀ fault, Q (.error fault) (g s))
    (comm : ∀ n, g (s.recount n) = (g s).recount n := by intro; rfl) :
    Does R config s (onState g >>= fun _ => persist e >>= f) Q := by
  intro i hi
  obtain ⟨n, hn⟩ := hi.tables
  have hact : Acts permits i.state (g i.state) := hn ▸ act n
  have hat : ∀ j : Impl, j.state = g i.state → j.config = i.config → j.At config (g s) :=
    fun j hj hc => ⟨⟨n, by rw [hj, hn, comm]⟩, hc.trans hi.config⟩
  refine (Program.wp_update_bind (fun i : Impl => { i with state := g i.state })
    fun _ => persist e >>= f).mpr ?_
  rw [Program.wp_bind]
  have hp := persist_persisted e { i with state := g i.state }
  unfold wp
  generalize (persist e).run { i with state := g i.state } = run at hp
  obtain ⟨r, j⟩ := run
  cases hp with
  | thrown fault => exact ⟨Steps.move (.lose hact), _, hat _ rfl rfl, herr fault⟩
  | disabled disabled =>
    obtain ⟨hr, hq⟩ := hok (.ok ()) { i with state := g i.state } (hat _ rfl rfl)
    exact ⟨Steps.trans (Steps.move (.skip hact disabled)) hr, hq⟩
  | failed status io enabled =>
    obtain ⟨hr, hq⟩ := hok (.error status) { i with io, state := g i.state, store := i.store.losing }
      (hat _ rfl rfl)
    refine ⟨Steps.trans (Steps.move (Move.quiet (?_ : SameStore i { i with io })))
      (Steps.trans (Steps.move (.lose (i := { i with io }) hact)) hr), hq⟩
    exact ⟨rfl, rfl, rfl, rfl, rfl, rfl, rfl⟩
  | written io fits enabled =>
    obtain ⟨hr, hq⟩ := hok (.ok ())
      { i with io, state := (g i.state).counted, store := i.store.appended e }
      ⟨⟨n + 1, by rw [hn, comm]; rfl⟩, hi.config⟩
    have hrec : e.Records i.state (g i.state) := by
      rw [hn, comm]
      exact records.recount n n
    have hbacked : e.Backed permits (g i.state) := by
      rw [hn, comm]
      exact backed n
    refine ⟨Steps.trans (Steps.move (Move.quiet (?_ : SameStore i { i with io })))
      (Steps.trans (Steps.move (.write (i := { i with io }) e hact hrec fits hbacked enabled)) hr), hq⟩
    exact ⟨rfl, rfl, rfl, rfl, rfl, rfl, rfl⟩

section Act

variable {g : State → State} {e : Entity}
  (act : ∀ n, Acts permits (s.recount n) (g (s.recount n))) (records : e.Records s (g s))
  (backed : ∀ n, e.Backed permits ((g s).recount n))

include act records backed

theorem act_persistVoid_bind {f : Unit → M β} (h : Does R config (g s) (f ()) Q)
    (herr : ∀ fault, Q (.error fault) (g s))
    (comm : ∀ n, g (s.recount n) = (g s).recount n := by intro; rfl) :
    Does R config s (onState g >>= fun _ => persistVoid e >>= f) Q := by
  have : Does R config s (onState g >>= fun _ => DistributedCompilation.persist e >>= fun _ => f ()) Q :=
    act_persist_bind act records backed (fun _ => h) herr comm
  simpa only [persistVoid, LawfulMonad.bind_assoc, pure_bind] using this

theorem act_persistVoid {Q : Except Fault Unit → State → Prop} (h : ∀ r, Q r (g s))
    (comm : ∀ n, g (s.recount n) = (g s).recount n := by intro; rfl) :
    Does R config s (onState g >>= fun _ => persistVoid e) Q := by
  have : Does R config s (onState g >>= fun _ => DistributedCompilation.persistVoid e >>= Pure.pure) Q :=
    act_persistVoid_bind act records backed (pure (h _)) (fun _ => h _) comm
  simpa only [bind_pure] using this

theorem act_persistOrLeave_bind {f : Unit → M β} (h : Does R config (g s) (f ()) Q)
    (herr : ∀ fault, Q (.error fault) (g s))
    (comm : ∀ n, g (s.recount n) = (g s).recount n := by intro; rfl) :
    Does R config s (onState g >>= fun _ => persistOrLeave e >>= f) Q := by
  have : Does R config s (onState g >>= fun _ => DistributedCompilation.persist e >>= fun status =>
      DistributedCompilation.orLeave status >>= f) Q :=
    act_persist_bind act records backed (fun _ => orLeave_bind (fun _ _ => h) herr) herr comm
  simpa only [persistOrLeave, LawfulMonad.bind_assoc] using this

theorem act_persistOrLeave {Q : Except Fault Unit → State → Prop} (h : ∀ r, Q r (g s))
    (comm : ∀ n, g (s.recount n) = (g s).recount n := by intro; rfl) :
    Does R config s (onState g >>= fun _ => persistOrLeave e) Q := by
  have : Does R config s (onState g >>= fun _ => DistributedCompilation.persistOrLeave e >>= Pure.pure) Q :=
    act_persistOrLeave_bind act records backed (pure (h _)) (fun _ => h _) comm
  simpa only [bind_pure] using this

end Act

/-- An append leaves the tables alone. -/
theorem persist {e : Entity} (records : e.Records s s) (backed : ∀ n, e.Backed permits (s.recount n)) :
    Does R config s (DistributedCompilation.persist e) fun _ s' => s' = s := by
  have : Does R config s (onState id >>= fun _ => DistributedCompilation.persist e >>= Pure.pure)
      fun _ s' => s' = s :=
    act_persist_bind (fun _ => .inl rfl) records backed (fun _ => pure rfl) fun _ => rfl
  rw [bind_pure] at this
  exact this

end Persistence

-- ---------------------------------------------------------------------------
-- Sections that leave the tables alone
-- ---------------------------------------------------------------------------

section Unchanged

variable {Q : Except Fault β → State → Prop}

theorem bind_unchanged (hm : Does R config s m fun _ s' => s' = s)
    (hok : ∀ a, Does R config s (f a) Q) (herr : ∀ e, Q (.error e) s) :
    Does R config s (m >>= f) Q :=
  bind hm (fun a _ hs => hs ▸ hok a) fun e _ hs => hs ▸ herr e

theorem ignoring {m : M (Result Unit)} {P : State → Prop} (h : Does R config s m fun _ s' => P s') :
    Does R config s (DistributedCompilation.ignoring m) fun _ s' => P s' :=
  bind h (fun _ _ hs => pure hs) fun _ _ hs => hs

theorem orReturn {m : M (Result Unit)} {P : State → Prop} (h : Does R config s m fun _ s' => P s') :
    Does R config s (DistributedCompilation.orReturn m) fun _ s' => P s' :=
  bind h (fun _ _ hs => orLeave (fun _ _ => hs) fun _ => hs) fun _ _ hs => hs

theorem persistVoid {e : Entity} (records : e.Records s s)
    (backed : ∀ n, e.Backed permits (s.recount n)) :
    Does R config s (DistributedCompilation.persistVoid e) fun _ s' => s' = s :=
  bind_unchanged (persist records backed) (fun _ => pure rfl) fun _ => rfl

theorem persistOrLeave {e : Entity} (records : e.Records s s)
    (backed : ∀ n, e.Backed permits (s.recount n)) :
    Does R config s (DistributedCompilation.persistOrLeave e) fun _ s' => s' = s :=
  bind_unchanged (persist records backed) (fun _ => orLeave (fun _ _ => rfl) fun _ => rfl) fun _ => rfl

end Unchanged

end Does

end DistributedCompilation
