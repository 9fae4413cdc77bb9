import DistributedCompilation.Server.Replies

/-!
# Distributed Compilation — the sessions of the connections

A connection speaks for the session its last registration drew. No two connections
ever hold one session, so what the coordinator sends to a session reaches the one
connection that registered it.
-/

namespace DistributedCompilation

open Program (Keeps Yields)

-- ---------------------------------------------------------------------------
-- Sessions that were drawn
-- ---------------------------------------------------------------------------

/-- The session was drawn by a registration, and its record is a worker's. -/
structure State.Drawn (s : State) (session : SessionId) : Prop where
  below : session.value < s.header.nextSessionId
  enrolled : ∃ record : SessionRecord, s.sessions[session]? = some record ∧ record.isWorker = true ∧
    record.id = session

namespace State.Drawn

variable {s s' : State} {session : SessionId}

/-- Registrations draw upwards, and no record loses what it says of its worker. -/
theorem mono (h : s.Drawn session) (next : s.header.nextSessionId ≤ s'.header.nextSessionId)
    (sessions : ∀ record : SessionRecord, s.sessions[session]? = some record →
      ∃ later : SessionRecord, s'.sessions[session]? = some later ∧ later.isWorker = record.isWorker ∧
        later.id = record.id) : s'.Drawn session := by
  obtain ⟨record, hrecord, hworker, hid⟩ := h.enrolled
  obtain ⟨later, hlater, hisWorker, hlaterId⟩ := sessions record hrecord
  exact ⟨Nat.lt_of_lt_of_le h.below next, later, hlater, hisWorker.trans hworker, hlaterId.trans hid⟩

/-- Header and sessions are the same. -/
theorem of_sessions (h : s.Drawn session) (next : s'.header.nextSessionId = s.header.nextSessionId)
    (sessions : s'.sessions = s.sessions) : s'.Drawn session :=
  h.mono (Nat.le_of_eq next.symm) fun record hrecord => ⟨record, by rw [sessions]; exact hrecord, rfl, rfl⟩

variable [HashFunction]

omit [HashFunction] in
theorem of_touch (h : s.Drawn session) (touch : Touch s s') : s'.Drawn session := by
  cases touch with
  | note note => exact h.of_sessions (congrArg StateHeader.nextSessionId note.stable :) note.sessions
  | session id continues =>
    refine h.mono (Nat.le_refl _) fun record hrecord => ?_
    unfold State.withSession
    simp only
    rw [Table.get_modify]
    split
    next hid =>
      rw [hid, hrecord, Option.map_some]
      exact ⟨_, rfl, (continues record).isWorker, (continues record).id⟩
    next => exact ⟨record, hrecord, rfl, rfl⟩
  | record | attempt | worker | lease | revoke => exact h.of_sessions rfl rfl

theorem of_change (h : s.Drawn session) (change : Change s s') : s'.Drawn session := by
  cases change with
  | resolve aside => exact h.of_sessions (congrArg StateHeader.nextSessionId aside.stable :) aside.sessions
  | supersede =>
    unfold State.supersede
    simp only
    split
    · exact h.of_sessions rfl rfl
    · exact h.of_sessions rfl rfl
  | create | withdraw | lower | assign | publish => exact h.of_sessions rfl rfl

omit [HashFunction] in
theorem of_admission (h : s.Drawn session) (admission : Admission s s') : s'.Drawn session := by
  cases admission with
  | ready => exact h.of_sessions rfl rfl
  | @enroll worker entry number =>
    refine h.mono (Nat.le_succ _) fun record hrecord => ⟨record, ?_, rfl, rfl⟩
    have hother : entry.id ≠ session := by
      intro heq
      have hbelow := h.below
      rw [← heq, number] at hbelow
      exact Nat.lt_irrefl _ hbelow
    show (s.sessions.insert entry.id entry)[session]? = some record
    rw [Table.get_insert, if_neg hother]
    exact hrecord

instance lasting (session : SessionId) : Lasting fun i => i.state.Drawn session where
  quiet hi hstate _ := hstate ▸ hi
  touch hi h := State.Drawn.of_touch hi h
  change hi h := State.Drawn.of_change hi h
  admission hi h := State.Drawn.of_admission hi h

end State.Drawn

section

variable [HashFunction]

/-- Every session from `first` on is still to be drawn. -/
instance Lasting.undrawn (first : Nat) : Lasting fun i => first ≤ i.state.header.nextSessionId where
  quiet hi hstate _ := hstate ▸ hi
  touch hi h := by
    cases h with
    | note note => exact hi.trans (Nat.le_of_eq (congrArg StateHeader.nextSessionId note.stable.symm :))
    | record | attempt | worker | lease | revoke | session => exact hi
  change hi h := by
    cases h with
    | resolve aside => exact hi.trans (Nat.le_of_eq (congrArg StateHeader.nextSessionId aside.stable.symm :))
    | supersede =>
      unfold State.supersede
      simp only
      split
      · exact hi
      · exact hi
    | create | withdraw | lower | assign | publish => exact hi
  admission hi h := by
    cases h with
    | ready => exact hi
    | enroll => exact Nat.le_succ_of_le hi

/-- A registration that succeeds drew the next session. -/
theorem wp_registerWorker_session (registration : WorkerRegistration) (i : Impl) :
    Program.wp (registerWorker registration) (fun r j => ∀ registered, r = .ok registered →
      i.state.header.nextSessionId ≤ registered.session.value ∧ j.state.Drawn registered.session) i := by
  have failed (fault : Fault) (j : Impl) : ∀ registered : RegisteredWorker, Except.error fault = .ok registered →
      i.state.header.nextSessionId ≤ registered.session.value ∧ j.state.Drawn registered.session := by
    intro registered h
    cases h
  unfold registerWorker
  refine Still.wp_ensureOpen_bind (fun _ => ?_) fun fault => failed fault i
  split
  next => exact failed _ _
  next =>
  split
  next => exact failed _ _
  next =>
  refine Program.wp_seq (fun _ k => True ∧ k.state = i.state) (Still.orThrow _ i ⟨trivial, rfl⟩)
    (fun advertised j hj => ?_) fun fault j _ => failed fault j
  obtain ⟨-, hstate⟩ := hj
  simp only
  rw [Program.wp_read_bind]
  split
  next => exact failed _ _
  next =>
  rw [Still.wp_now_bind, Still.wp_onState_bind]
  refine Program.wp_seq (fun _ k => k.state.Drawn ⟨j.state.header.nextSessionId⟩) ?_
    (fun _ k hk => ?_) fun fault k _ => failed fault k
  · refine Still.orReturn (Noted.persistEntity (I := fun k => k.state.Drawn ⟨j.state.header.nextSessionId⟩) _) _ ?_
    exact ⟨Nat.lt_succ_self _, _, (Table.get_insert _ _ _ _).trans (if_pos rfl), rfl, rfl⟩
  · intro registered h
    cases h
    refine ⟨?_, hk⟩
    rw [← hstate]
    exact Nat.le_refl _

-- ---------------------------------------------------------------------------
-- One connection
-- ---------------------------------------------------------------------------

omit [HashFunction] in
@[simp] theorem Connection.session_queueFrame (connection : Connection) (op : Wire.Op) (requestId : UInt64)
    (payload : Bytes) : (connection.queueFrame op requestId payload).session = connection.session := by
  unfold Connection.queueFrame
  split
  · rfl
  · rfl

/-- Instead of its session a connection has one that was drawn since, or none. -/
structure Takes (first : Nat) (session next : SessionId) (i : Impl) : Prop where
  undrawn : first ≤ i.state.header.nextSessionId
  taken : next = session ∨ first ≤ next.value ∧ i.state.Drawn next

namespace Takes

variable {first : Nat} {session : SessionId}

instance lasting (next : SessionId) : Lasting (Takes first session next) where
  quiet hi hstate _ := ⟨hstate ▸ hi.undrawn, hstate ▸ hi.taken⟩
  touch hi h := ⟨Touched.touch (I := fun i => first ≤ i.state.header.nextSessionId) hi.undrawn h,
    hi.taken.imp_right fun taken => ⟨taken.1, taken.2.of_touch h⟩⟩
  change hi h := ⟨Tracked.change (I := fun i => first ≤ i.state.header.nextSessionId) hi.undrawn h,
    hi.taken.imp_right fun taken => ⟨taken.1, taken.2.of_change h⟩⟩
  admission hi h := ⟨(Lasting.undrawn first).admission hi.undrawn h,
    hi.taken.imp_right fun taken => ⟨taken.1, taken.2.of_admission h⟩⟩

end Takes

namespace Server

variable {first : Nat} {session : SessionId}

/-- What a connection takes while one of its frames is handled; where the handler is left
early, it stays as it was. -/
def Handles {α : Type} (first : Nat) (session : SessionId) (connection : Connection) (m : M (Connection × α)) :
    Prop :=
  ∀ i, Takes first session connection.session i → Program.wp m (fun r j =>
    Takes first session connection.session j ∧
      ∀ handled, r = .ok handled → Takes first session handled.1.session j) i

omit [HashFunction] in
/-- A handler that leaves the session alone. -/
theorem Handles.of_yields {α : Type} {connection : Connection} {m : M (Connection × α)}
    (keeps : Keeps (Takes first session connection.session) m)
    (same : Yields m fun handled => handled.1.session = connection.session) :
    Handles first session connection m := by
  intro i hi
  refine Program.wp_mono (Program.wp_and (keeps i hi) (same i)) fun r j hj => ⟨hj.1, fun handled hr => ?_⟩
  rw [hj.2 handled hr]
  exact hj.1

theorem handles_register (connection : Connection) (payload : Bytes) :
    Handles first session connection (register connection payload) := by
  intro i hi
  refine Program.wp_and (Lasting.register connection payload i hi) ?_
  have refuses {fault : Fault} {j : Impl} : ∀ handled : Connection × Reply, Except.error fault = .ok handled →
      Takes first session handled.1.session j := by
    intro handled h
    cases h
  unfold register
  cases Wire.decodeRegisterWorker payload with
  | none => exact refuses
  | some message =>
    have hdecoded : decoded "REGISTER_WORKER" (some message) = pure message := rfl
    rw [hdecoded, Program.wp_pure_bind]
    refine Program.wp_seq _ (Program.wp_and (wp_registerWorker_session _ i)
      (Lasting.registerWorker (I := fun j => first ≤ j.state.header.nextSessionId) _ i hi.undrawn)) ?_
      fun _ _ _ => refuses
    rintro registered j ⟨hdrawn, hfirst⟩
    obtain ⟨hnext, hrecord⟩ := hdrawn registered rfl
    have htakes : Takes first session registered.session j := ⟨hfirst, .inr ⟨hi.undrawn.trans hnext, hrecord⟩⟩
    refine Program.wp_seq _ (Lasting.finish (I := Takes first session registered.session) _ j htakes)
      (fun ready k hk => ?_) fun _ _ _ => refuses
    intro handled h
    cases h
    exact hk

theorem handles_dispatch (texts : Texts) (smoke : SmokeTest) (connection : Connection) (frame : Wire.Frame) :
    Handles first session connection (dispatch texts smoke connection frame) := by
  have keeps := Lasting.dispatch (I := Takes first session connection.session) texts smoke connection frame
  have replying (m : M Reply) : Yields (do let reply ← m; pure (connection, some reply) :
      M (Connection × Option Reply)) fun handled => handled.1.session = connection.session :=
    Yields.after m fun _ => Yields.pure rfl
  unfold dispatch at keeps ⊢
  cases hop : frame.op with
  | registerWorker =>
    intro i hi
    refine Program.wp_seq _ (handles_register connection frame.payload i hi) ?_ ?_
    · rintro ⟨next, reply⟩ j ⟨hsame, hnext⟩
      refine ⟨hsame, fun handled h => ?_⟩
      cases h
      exact hnext _ rfl
    · intro fault j hj
      refine ⟨hj.1, fun handled h => ?_⟩
      cases h
  | hello =>
    rw [hop] at keeps
    refine .of_yields keeps (Yields.bind (Q := fun handled => handled.1.session = connection.session) ?_ ?_)
    · exact Yields.after _ fun hello => Yields.pure rfl
    · exact fun handled hsame => Yields.pure hsame
  | cacheQuery =>
    rw [hop] at keeps
    refine .of_yields keeps (Yields.bind (Q := fun next => next.session = connection.session) ?_ ?_)
    · refine Yields.after _ fun message => Yields.after _ fun i => Yields.after _ fun inner => Yields.pure ?_
      exact Connection.session_queueFrame connection _ _ _
    · exact fun next hsame => Yields.pure hsame
  | assign | commitArtifact | validateOutput | cacheReport | response | error | invalid =>
    rw [hop] at keeps
    exact .of_yields keeps (Yields.leave _)
  | _ =>
    rw [hop] at keeps
    exact .of_yields keeps (replying _)

theorem handles_handleFrame (texts : Texts) (smoke : SmokeTest) (connection : Connection) (frame : Wire.Frame) :
    Handles first session connection (handleFrame texts smoke connection frame) := by
  have sending {next : Connection} (reply : Reply) :
      Yields (sendResponse next frame.requestId frame.op reply) fun last => last.session = next.session :=
    Yields.after _ fun encoded => Yields.pure (Connection.session_queueFrame next _ _ _)
  -- what is taken when the handler is done stays while the response is sent
  have sends {next : Connection} {reply : Reply} {stops : Bool} {j : Impl}
      (hnext : Takes first session next.session j) (hsame : Takes first session connection.session j) :
      Program.wp (do
        let last ← sendResponse next frame.requestId frame.op reply
        pure (last, stops) : M (Connection × Bool)) (fun r k => Takes first session connection.session k ∧
          ∀ handled, r = .ok handled → Takes first session handled.1.session k) j := by
    refine Program.wp_seq _ (Program.wp_and (sending reply j) (Program.wp_and
      (Lasting.sendResponse (I := Takes first session next.session) next frame.requestId frame.op reply j hnext)
      (Lasting.sendResponse next frame.requestId frame.op reply j hsame))) ?_ ?_
    · rintro last k ⟨hlast, hnext, hsame⟩
      refine ⟨hsame, fun handled h => ?_⟩
      cases h
      rw [hlast last rfl]
      exact hnext
    · rintro fault k ⟨-, -, hsame⟩
      refine ⟨hsame, fun handled h => ?_⟩
      cases h
  intro i hi
  unfold handleFrame
  refine Program.wp_seq (fun outcome j => ∃ r, outcome = .ok r ∧ (Takes first session connection.session j ∧
    ∀ handled, r = .ok handled → Takes first session handled.1.session j)) ?_ ?_ ?_
  · refine Program.wp_caught.mpr (Program.wp_mono (handles_dispatch texts smoke connection frame i hi) ?_)
    exact fun r j hj => ⟨r, rfl, hj⟩
  · rintro outcome j ⟨r, hr, hsame, hall⟩
    cases hr
    rcases outcome with (status | _) | ⟨next, _ | reply⟩
    · exact sends hsame hsame
    · refine ⟨hsame, fun handled h => ?_⟩
      cases h
    · refine ⟨hsame, fun handled h => ?_⟩
      cases h
      exact hall _ rfl
    · exact sends (hall _ rfl) hsame
  · rintro fault j ⟨r, hr, -⟩
    cases hr

theorem handles_handleFrames (texts : Texts) (smoke : List SmokeTest) (connection : Connection)
    (frames : List Bytes) : Handles first session connection (handleFrames texts smoke connection frames) := by
  induction frames generalizing smoke connection with
  | nil =>
    intro i hi
    refine ⟨hi, fun handled h => ?_⟩
    cases h
    exact hi
  | cons raw frames ih =>
    intro i hi
    refine Program.wp_and (Lasting.handleFrames texts smoke connection (raw :: frames) i hi) ?_
    unfold handleFrames
    cases Wire.decodeFrame raw with
    | error status =>
      have hsent : Yields (sendResponse connection 0 .error { status := .error status }) fun next =>
          next.session = connection.session :=
        Yields.after _ fun encoded => Yields.pure (Connection.session_queueFrame connection _ _ _)
      refine Program.wp_seq _ (Program.wp_and (hsent i) (Lasting.sendResponse connection 0 .error _ i hi)) ?_ ?_
      · rintro next j ⟨hnext, hj⟩
        rw [← hnext next rfl] at hj
        exact Program.wp_mono (ih smoke.tail next j hj) fun _ _ h => h.2
      · intro fault j _ handled h
        cases h
    | ok frame =>
      refine Program.wp_seq _ (handles_handleFrame texts _ connection frame i hi) ?_ ?_
      · rintro ⟨next, stops⟩ j ⟨-, hall⟩
        have hnext := hall _ rfl
        simp only
        split
        · intro handled h
          cases h
          exact hnext
        · exact Program.wp_mono (ih smoke.tail next j hnext) fun _ _ h => h.2
      · intro fault j _ handled h
        cases h

omit [HashFunction] in
theorem session_transmit (connection : Connection) (written : Written) :
    (connection.transmit written).session = connection.session := by
  have settled (connection : Connection) : connection.settle.session = connection.session := by
    unfold Connection.settle
    split
    · rfl
    · split
      · rfl
      · rfl
  unfold Connection.transmit
  split
  · rfl
  · cases written with
    | unready => rfl
    | failed => exact settled _
    | took count => exact settled _

/-- In a pass a connection keeps its session or takes one that is drawn in it. -/
theorem handles_serve (texts : Texts) (traffic : Traffic) (connection : Connection) {i : Impl}
    (hi : Takes first session connection.session i) :
    Program.wp (serve texts traffic connection) (fun r j =>
      ∀ served, r = .ok served → Takes first session served.1.session j) i := by
  have done {next : Connection} {stops : Bool} (hsame : next.session = connection.session) :
      ∀ served : Connection × Bool, (Except.ok (next, stops) : Except Fault (Connection × Bool)) = .ok served →
        Takes first session served.1.session i := by
    intro served h
    cases h
    rw [hsame]
    exact hi
  have hsame := session_transmit connection traffic.written
  unfold serve
  simp only
  split
  · exact done hsame
  · cases traffic.received with
    | unready => exact done hsame
    | lost => exact done hsame
    | data bytes =>
      unfold receive
      simp only
      split
      · exact done hsame
      · refine Program.wp_mono (handles_handleFrames texts _ _ _ i ?_) fun _ _ h => h.2
        rw [hsame]
        exact hi

end Server

-- ---------------------------------------------------------------------------
-- All connections
-- ---------------------------------------------------------------------------

/-- Every session in the list was drawn by a registration, and none is in it twice. -/
structure Separate (sessions : List SessionId) (i : Impl) : Prop where
  drawn : ∀ session ∈ sessions, session.isZero = false → i.state.Drawn session
  apart : sessions.Pairwise fun session other => session.isZero = false → session ≠ other

namespace Separate

variable {i j : Impl} {sessions : List SessionId}

instance lasting (sessions : List SessionId) : Lasting (Separate sessions) where
  quiet hi hstate _ := ⟨hstate ▸ hi.drawn, hi.apart⟩
  touch hi h := ⟨fun session hsession hzero => (hi.drawn session hsession hzero).of_touch h, hi.apart⟩
  change hi h := ⟨fun session hsession hzero => (hi.drawn session hsession hzero).of_change h, hi.apart⟩
  admission hi h := ⟨fun session hsession hzero => (hi.drawn session hsession hzero).of_admission h, hi.apart⟩

omit [HashFunction] in
theorem sublist (h : Separate sessions i) {fewer : List SessionId} (sub : fewer.Sublist sessions) :
    Separate fewer i :=
  ⟨fun session hsession => h.drawn session (sub.subset hsession), h.apart.sublist sub⟩

omit [HashFunction] in
/-- A connection without a session joins the others. -/
theorem accept (h : Separate sessions i) : Separate (sessions ++ [({} : SessionId)]) i := by
  refine ⟨fun session hsession hzero => ?_, ?_⟩
  · rcases List.mem_append.mp hsession with hsession | hsession
    · exact h.drawn session hsession hzero
    · obtain rfl := List.mem_singleton.mp hsession
      cases hzero
  · refine List.pairwise_append.mpr ⟨h.apart, List.pairwise_singleton _ _, fun session _ other hother hzero => ?_⟩
    obtain rfl := List.mem_singleton.mp hother
    rintro rfl
    cases hzero

omit [HashFunction] in
/-- A session that was drawn since is none of the others. -/
theorem replace {done rest : List SessionId} {session next : SessionId}
    (before : Separate (done ++ session :: rest) i) (after : Separate (done ++ session :: rest) j)
    (takes : Takes i.state.header.nextSessionId session next j) : Separate (done ++ next :: rest) j := by
  rcases takes.taken with rfl | ⟨hundrawn, hdrawn⟩
  · exact after
  have hothers : ∀ other ∈ done ++ rest, other.isZero = false → other ≠ next := by
    intro other hother hzero heq
    have hmember : other ∈ done ++ session :: rest := by
      rcases List.mem_append.mp hother with hother | hother
      · exact List.mem_append_left _ hother
      · exact List.mem_append_right _ (List.mem_cons_of_mem _ hother)
    have hbelow := (before.drawn other hmember hzero).below
    rw [heq] at hbelow
    omega
  obtain ⟨hdone, hrest, hacross⟩ := List.pairwise_append.mp after.apart
  rw [List.pairwise_cons] at hrest
  refine ⟨fun other hother hzero => ?_, List.pairwise_append.mpr ⟨hdone, List.pairwise_cons.mpr ⟨?_, hrest.2⟩, ?_⟩⟩
  · rcases List.mem_append.mp hother with hother | hother
    · exact after.drawn other (List.mem_append_left _ hother) hzero
    · rcases List.mem_cons.mp hother with rfl | hother
      · exact hdrawn
      · exact after.drawn other (List.mem_append_right _ (List.mem_cons_of_mem _ hother)) hzero
  · intro other hother hzero heq
    exact hothers other (List.mem_append_right _ hother) (heq ▸ hzero) heq.symm
  · intro other hother third hthird hzero
    rcases List.mem_cons.mp hthird with rfl | hthird
    · exact hothers other (List.mem_append_left _ hother) hzero
    · exact hacross other hother third (List.mem_cons_of_mem _ hthird) hzero

end Separate

namespace Server

/-- The sessions the connections speak for. -/
abbrev sessionsOf (connections : List Connection) : List SessionId := connections.map (·.session)

theorem wp_serveAll (texts : Texts) (traffic : List Traffic) (done : List SessionId)
    (connections : List Connection) {i : Impl} (h : Separate (done ++ sessionsOf connections) i) :
    Program.wp (serveAll texts traffic connections) (fun r j =>
      ∀ served, r = .ok served → Separate (done ++ sessionsOf served.1) j) i := by
  induction connections generalizing traffic done i with
  | nil =>
    intro served hserved
    cases hserved
    exact h
  | cons connection connections ih =>
    have hself : Takes i.state.header.nextSessionId connection.session connection.session i :=
      ⟨Nat.le_refl _, .inl rfl⟩
    have taken := handles_serve texts (traffic.headD {}) connection hself
    have kept := Lasting.serve (I := Separate (done ++ sessionsOf (connection :: connections))) texts
      (traffic.headD {}) connection i h
    refine Program.wp_seq _ (Program.wp_and taken kept) ?_ ?_
    · rintro ⟨next, stops⟩ j ⟨hnext, hkept⟩
      have hreplaced : Separate ((done ++ [next.session]) ++ sessionsOf connections) j := by
        rw [List.append_assoc]
        exact h.replace hkept (hnext _ rfl)
      refine Program.wp_seq _ (ih traffic.tail _ hreplaced) (fun others k hothers => ?_) fun _ _ _ served hserved => ?_
      · intro served hserved
        cases hserved
        have hall := hothers _ rfl
        rw [List.append_assoc] at hall
        exact hall
      · cases hserved
    · intro fault j _ served hserved
      cases hserved

omit [HashFunction] in
theorem sessionsOf_post (session : SessionId) (op : Wire.Op) (payload : Bytes) (connections : List Connection) :
    sessionsOf (post session op payload connections) = sessionsOf connections := by
  induction connections with
  | nil => rfl
  | cons connection connections ih =>
    unfold post
    split
    · exact congrArg (connection.session :: ·) ih
    · exact congrArg (· :: sessionsOf connections) (Connection.session_queueFrame connection op 0 payload)

omit [HashFunction] in
theorem yields_deliverAssignments_sessions (assignments : List Assignment) (connections : List Connection) :
    Yields (deliverAssignments assignments connections) fun delivered =>
      sessionsOf delivered = sessionsOf connections := by
  induction assignments generalizing connections with
  | nil => exact Yields.pure rfl
  | cons assignment assignments ih =>
    refine Yields.bind (Q := fun delivered => sessionsOf delivered = sessionsOf connections) ?_
      fun delivered hsame => (ih delivered).mono fun _ h => h.trans hsame
    refine Yields.ite (fun _ => Yields.after _ fun payload => Yields.pure ?_) fun _ => Yields.pure rfl
    exact sessionsOf_post _ _ _ _

omit [HashFunction] in
theorem yields_deliverControls_sessions (controls : List ControlMessage) (connections : List Connection) :
    Yields (deliverControls controls connections) fun delivered =>
      sessionsOf delivered = sessionsOf connections := by
  induction controls generalizing connections with
  | nil => exact Yields.pure rfl
  | cons control controls ih =>
    refine Yields.after _ fun s => Yields.after _ fun payload => ?_
    exact (ih _).mono fun _ h => h.trans (sessionsOf_post _ _ _ _)

omit [HashFunction] in
/-- What follows with fewer sessions or the same, where it keeps them apart. -/
theorem wp_fewer {m : M (List Connection)} {sessions : List SessionId} {i : Impl} (h : Separate sessions i)
    (keeps : Keeps (Separate sessions) m) (fewer : Yields m fun left => (sessionsOf left).Sublist sessions)
    {f : List Connection → M (List Connection × Bool)}
    (hf : ∀ left j, Separate (sessionsOf left) j → Program.wp (f left) (fun r k =>
      ∀ body, r = .ok body → Separate (sessionsOf body.1) k) j) :
    Program.wp (m >>= f) (fun r k => ∀ body, r = .ok body → Separate (sessionsOf body.1) k) i := by
  refine Program.wp_seq _ (Program.wp_and (keeps i h) (fewer i)) ?_ ?_
  · rintro left j ⟨hj, hleft⟩
    exact hf left j (hj.sublist (hleft left rfl))
  · intro fault j _ body hbody
    cases hbody

/-- A pass leaves the sessions of its connections apart. -/
theorem wp_body (texts : Texts) (pass : Pass) (connections : List Connection) {i : Impl}
    (h : Separate (sessionsOf connections) i) :
    Program.wp (body texts pass connections) (fun r j =>
      ∀ left, r = .ok left → Separate (sessionsOf left.1) j) i := by
  have failed {fault : Fault} {j : Impl} : ∀ left : List Connection × Bool,
      Except.error fault = .ok left → Separate (sessionsOf left.1) j := by
    intro left hleft
    cases hleft
  refine Program.wp_seq _ (wp_serveAll texts pass.traffic [] connections h) (fun served j hserved => ?_)
    fun _ _ _ => failed
  have haccepted : Separate (sessionsOf (if pass.accepts then served.1 ++ [({} : Connection)] else served.1)) j := by
    split
    · have hone := (hserved _ rfl).accept
      rwa [sessionsOf, List.map_append]
    · exact hserved _ rfl
  refine Program.wp_seq _ (Tracked.pump (I := Separate _) j haccepted) (fun assignments k hk => ?_)
    fun _ _ _ => failed
  refine wp_fewer hk (Lasting.deliverAssignments assignments _) ?_ fun assigned k hassigned => ?_
  · exact (yields_deliverAssignments_sessions assignments _).mono fun _ h => h ▸ .refl _
  refine Program.wp_seq _ (Noted.drainControls (I := Separate _) k hassigned) (fun controls k hk => ?_)
    fun _ _ _ => failed
  refine wp_fewer hk (Lasting.deliverControls controls _) ?_ fun told k htold => ?_
  · exact (yields_deliverControls_sessions controls _).mono fun _ h => h ▸ .refl _
  refine wp_fewer htold (Lasting.reap told) ?_ fun left k hleft => ?_
  · refine (yields_reap told).mono fun left hleft => ?_
    rw [hleft]
    exact List.filter_sublist.map _
  · intro body hbody
    cases hbody
    exact hleft

theorem Serves.separate {texts : Texts} {first : Impl} {server : Server} (serves : Serves texts first server) :
    Separate (sessionsOf server.connections) server.impl := by
  induction serves with
  | start =>
    refine ⟨fun session hsession => ?_, List.Pairwise.nil⟩
    cases hsession
  | @pass server _ _ pass ih =>
    have hbody := wp_body texts pass server.connections (Lasting.given pass.environment ih)
    unfold Server.pass
    unfold Program.wp at hbody
    generalize (body texts pass server.connections).run (System.given pass.environment server.impl) =
      run at hbody ⊢
    rcases run with ⟨_ | ⟨left, stops⟩, impl⟩
    · refine ⟨fun session hsession => ?_, List.Pairwise.nil⟩
      cases hsession
    · exact hbody _ rfl

omit [HashFunction] in
/-- Where no other connection holds the session, the first that does is the only one. -/
theorem post_eq {session : SessionId} (nonzero : session.isZero = false) (op : Wire.Op) (payload : Bytes)
    {connections : List Connection}
    (apart : (sessionsOf connections).Pairwise fun session other => session.isZero = false → session ≠ other) :
    post session op payload connections = connections.map fun connection =>
      if connection.session = session then connection.queueFrame op 0 payload else connection := by
  induction connections with
  | nil => rfl
  | cons connection connections ih =>
    rw [sessionsOf, List.map_cons, List.pairwise_cons] at apart
    obtain ⟨hfirst, hothers⟩ := apart
    unfold post
    rw [List.map_cons]
    split
    next => rw [ih hothers]
    next hholds =>
      have hheld : connection.session = session := not_not.mp hholds
      have hsame : connections.map (fun connection =>
          if connection.session = session then connection.queueFrame op 0 payload else connection) =
          connections := by
        refine (List.map_congr_left fun other hother => if_neg fun heq => ?_).trans (List.map_id _)
        exact hfirst other.session (List.mem_map_of_mem hother) (hheld ▸ nonzero) (hheld.trans heq.symm)
      rw [hsame, if_pos hheld]

end Server

end

end DistributedCompilation
