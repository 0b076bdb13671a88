import Anope.Account.Sasl

/-!
# SASL sessions and their answers

The table of the service leads to live sessions whatever happens.  That every session is in the
table, that it is ended once, and that an answer goes to the session that asked for it, holds as
long as certain steps are not taken.
-/

namespace Anope.Account.Sasl

open Library Library.Run Identify

/-! ## Invariants of moves -/

variable {υ μ α : Type} [DecidableEq υ]

section Invariants

variable {leaks stays restarts : Prop} {known : Fields υ → Prop} {st st' next : State υ μ α}
  {uid uid' : υ} {s : Nat} {mech : Option Mechanism}

/-- The uid of a live session. -/
def State.uidOf (st : State υ μ α) (s : Nat) : Option υ :=
  (st.live s).map Session.uid

/-- What the table leads to is a live session of the uid. -/
structure Sound (st : State υ μ α) : Prop where
  table : ∀ {uid s}, st.getSession uid = some s → st.uidOf s = some uid
  fresh : ∀ {s}, st.made ≤ s → st.uidOf s = none

/-- Every live session is in the table. -/
def NoneLost (st : State υ μ α) : Prop :=
  ∀ s uid, st.uidOf s = some uid → st.getSession uid = some s

/-- A session that lives was not ended, and no session was ended twice. -/
structure Once (st : State υ μ α) : Prop where
  live : ∀ {s uid}, st.uidOf s = some uid → endings st.sent s = 0
  atMost : ∀ s, endings st.sent s ≤ 1
  fresh : ∀ {s}, st.made ≤ s → endings st.sent s = 0

/-- The uid of some requests has no session but the one in which they were made. -/
def Bound (known : Fields υ → Prop) (st : State υ μ α) : Prop :=
  ∀ fields, known fields → fields.session < st.made ∧
    ∀ s, st.getSession fields.uid = some s → s = fields.session

/-- Messages that are sent because of a request go to the session in which it was made. -/
def Matched (st : State υ μ α) : Prop :=
  ∀ message ∈ st.sent, ∀ fields, message.request = some fields →
    message.session = some fields.session

theorem Sound.lt_made (sound : Sound st) (found : st.getSession uid = some s) : s < st.made := by
  refine Nat.lt_of_not_le fun beyond => ?_
  cases (sound.table found).symm.trans (sound.fresh beyond)

theorem getSession_newSession (st : State υ μ α) (uid uid' : υ) (mech : Option Mechanism) :
    (st.newSession uid mech).getSession uid' =
      if uid' = uid then some st.made else st.getSession uid' := by
  by_cases same : uid' = uid
  · subst same
    rw [if_pos rfl]
    exact AList.lookup_insert _
  · rw [if_neg same]
    exact AList.lookup_insert_ne same

theorem getSession_removeSession {s' : Nat} :
    (st.removeSession uid).getSession uid' = some s' ↔
      uid' ≠ uid ∧ st.getSession uid' = some s' := by
  by_cases same : uid' = uid
  · subst same
    exact iff_of_false (by simp [State.getSession, State.removeSession]) fun both => both.1 rfl
  · exact (Eq.congr_left (AList.lookup_erase_ne same)).trans (and_iff_right same).symm

theorem getSession_deleteSession_iff {s' : Nat} :
    (st.deleteSession s uid).getSession uid' = some s' ↔
      uid' ≠ uid ∧ st.getSession uid' = some s' :=
  getSession_removeSession

theorem uidOf_newSession (st : State υ μ α) (uid : υ) (mech : Option Mechanism) (s : Nat) :
    (st.newSession uid mech).uidOf s = if s = st.made then some uid else st.uidOf s := by
  by_cases same : s = st.made <;> simp [State.uidOf, State.newSession, same]

theorem uidOf_deleteSession {s' : Nat} :
    (st.deleteSession s uid).uidOf s' = some uid' ↔ s' ≠ s ∧ st.uidOf s' = some uid' := by
  by_cases same : s' = s <;> simp [State.uidOf, State.deleteSession, State.removeSession, same]

theorem Sound.newSession (sound : Sound st) : Sound (st.newSession uid mech) where
  table {uid' s} found := by
    rw [getSession_newSession] at found
    rw [uidOf_newSession]
    split at found
    · next same =>
        cases found
        rw [if_pos rfl, same]
    · rw [if_neg (Nat.ne_of_lt (sound.lt_made found))]
      exact sound.table found
  fresh {s} beyond := by
    have beyond : st.made < s := beyond
    rw [uidOf_newSession, if_neg (Nat.ne_of_gt beyond)]
    exact sound.fresh (Nat.le_of_lt beyond)

theorem Sound.deleteSession (sound : Sound st) (found : st.getSession uid = some s) :
    Sound (st.deleteSession s uid) where
  table {uid' s'} found' := by
    obtain ⟨differ, before⟩ := getSession_deleteSession_iff.mp found'
    refine uidOf_deleteSession.mpr ⟨?_, sound.table before⟩
    rintro rfl
    have own := (sound.table before).symm.trans (sound.table found)
    exact differ (Option.some.inj own)
  fresh {s'} beyond := by
    refine Option.eq_none_iff_forall_ne_some.mpr fun uid' isUid => ?_
    cases (sound.fresh beyond).symm.trans (uidOf_deleteSession.mp isUid).2

theorem Move.sound (move : Move leaks stays restarts known st st') (sound : Sound st) :
    Sound st' := by
  cases move with
  | quiet sessions live made _ _ =>
      refine ⟨fun {uid s} found => (live s).trans (sound.table ?_), fun {s} beyond => ?_⟩
      · exact (congrArg (AList.lookup uid) sessions).symm.trans found
      · exact (live s).trans (sound.fresh (made ▸ beyond))
  | create uid mech new _ => exact sound.newSession
  | refuse uid mech new =>
      have begun : Sound (st.newSession uid mech) := sound.newSession
      have found : (st.newSession uid mech).getSession uid = some st.made := by
        rw [getSession_newSession, if_pos rfl]
      exact Sound.deleteSession ⟨begun.table, begun.fresh⟩ found
  | drop uid s found => exact sound.deleteSession found
  | finish uid s reply request found _ =>
      exact Sound.deleteSession ⟨sound.table, sound.fresh⟩ found
  | leak uid _ =>
      exact ⟨fun found => sound.table (getSession_removeSession.mp found).2, sound.fresh⟩
  | stay uid s reply found _ => exact ⟨sound.table, sound.fresh⟩

theorem NoneLost.deleteSession (noneLost : NoneLost st) (found : st.getSession uid = some s) :
    NoneLost (st.deleteSession s uid) := by
  intro s' uid' isUid
  obtain ⟨differ, isUid⟩ := uidOf_deleteSession.mp isUid
  have found' := noneLost s' uid' isUid
  refine getSession_deleteSession_iff.mpr ⟨?_, found'⟩
  rintro rfl
  exact differ (Option.some.inj (found'.symm.trans found))

theorem NoneLost.newSession (noneLost : NoneLost st) (new : st.getSession uid = none) :
    NoneLost (st.newSession uid mech) := by
  intro s uid' isUid
  rw [uidOf_newSession] at isUid
  rw [getSession_newSession]
  split at isUid
  · next same =>
      cases isUid
      rw [if_pos rfl, same]
  · have found := noneLost s uid' isUid
    rw [if_neg]
    · exact found
    · rintro rfl
      cases new.symm.trans found

theorem Move.noneLost (move : Move False stays restarts known st st')
    (noneLost : NoneLost st) : NoneLost st' := by
  cases move with
  | quiet sessions live _ _ _ =>
      intro s uid isUid
      have found := noneLost s uid ((live s).symm.trans isUid)
      exact (congrArg (AList.lookup uid) sessions).trans found
  | create uid mech new _ => exact noneLost.newSession new
  | refuse uid mech new =>
      have begun : NoneLost (st.newSession uid mech) := noneLost.newSession new
      have sent : NoneLost ((st.newSession uid mech).sendMessage (some st.made) uid .failure none) :=
        begun
      exact sent.deleteSession ((getSession_newSession st uid uid mech).trans (if_pos rfl))
  | drop uid s found => exact noneLost.deleteSession found
  | finish uid s reply request found _ =>
      have kept : NoneLost (st.sendMessage (some s) uid reply request) := noneLost
      exact kept.deleteSession found
  | leak uid may =>
      intro s uid' isUid
      have found := noneLost s uid' isUid
      refine getSession_removeSession.mpr ⟨?_, found⟩
      rintro rfl
      cases (may.resolve_left id).symm.trans found
  | stay uid s reply found _ => exact noneLost

theorem Once.newSession (once : Once st) : Once (st.newSession uid mech) where
  live {s uid'} isUid := by
    rw [uidOf_newSession] at isUid
    split at isUid
    · next same => exact once.fresh (Nat.le_of_eq same.symm)
    · exact once.live isUid
  atMost := once.atMost
  fresh beyond := once.fresh (Nat.le_of_succ_le beyond)

theorem Once.end_ (once : Once st) (sound : Sound st) (isUid : st.uidOf s = some uid)
    (reply : Reply α) (request : Option (Fields υ)) : Once (st.endSession s uid reply request) where
  live {s' uid'} isUid' := by
    obtain ⟨differ, isUid'⟩ := uidOf_deleteSession.mp isUid'
    have none : ¬(some s = some s' ∧ reply.final = true) := fun both =>
      differ (Option.some.inj both.1).symm
    exact (endings_append _ _ s').trans (by rw [once.live isUid', if_neg none])
  atMost s' := by
    refine (endings_append st.sent _ s').trans_le ?_
    split
    · next ends =>
        have same : s = s' := Option.some.inj ends.1
        rw [← same, once.live isUid]
    · exact once.atMost s'
  fresh {s'} beyond := by
    have differ : ¬(some s = some s' ∧ reply.final = true) := by
      rintro ⟨same, -⟩
      cases same
      cases isUid.symm.trans (sound.fresh beyond)
    exact (endings_append _ _ s').trans (by rw [once.fresh beyond, if_neg differ])

theorem Move.once (move : Move leaks False restarts known st st') (sound : Sound st)
    (once : Once st) : Once st' := by
  cases move with
  | quiet sessions live made _ sent =>
      have same : ∀ s, endings st'.sent s = endings st.sent s := by
        rcases sent with same | ⟨message, same, -, open_⟩
        · exact fun s => by rw [same]
        · intro s
          rw [same, endings_append, if_neg, Nat.add_zero]
          rintro ⟨isSession, final⟩
          rcases open_ with none | notFinal
          · cases none.symm.trans isSession
          · cases notFinal.symm.trans final
      refine ⟨fun {s uid} isUid => ?_, fun s => ?_, fun {s} beyond => ?_⟩
      · exact (same s).trans (once.live ((live s).symm.trans isUid))
      · exact (same s).trans_le (once.atMost s)
      · exact (same s).trans (once.fresh (made ▸ beyond))
  | create uid mech new _ => exact once.newSession
  | refuse uid mech new =>
      refine once.newSession.end_ sound.newSession ?_ .failure none
      rw [uidOf_newSession, if_pos rfl]
  | drop uid s found =>
      exact ⟨fun isUid => once.live (uidOf_deleteSession.mp isUid).2, once.atMost, once.fresh⟩
  | finish uid s reply request found _ => exact once.end_ sound (sound.table found) reply request
  | leak uid _ => exact ⟨once.live, once.atMost, once.fresh⟩
  | stay uid s reply found may => exact may.elim

/-- A session goes, or the table loses a uid. -/
theorem Bound.of_less (bound : Bound known st) (made : st.made ≤ st'.made)
    (less : ∀ fields s, known fields → st'.getSession fields.uid = some s →
      st.getSession fields.uid = some s) : Bound known st' := by
  intro fields isKnown
  obtain ⟨old, own⟩ := bound fields isKnown
  exact ⟨Nat.lt_of_lt_of_le old made, fun s found => own s (less fields s isKnown found)⟩

omit [DecidableEq υ] in
theorem Matched.send (matched : Matched st) {message : Sent υ α}
    (own : ∀ fields, message.request = some fields → message.session = some fields.session)
    (sent : st'.sent = st.sent ++ [message]) : Matched st' := by
  intro message' mem fields isRequest
  rw [sent] at mem
  rcases List.mem_append.mp mem with before | new
  · exact matched message' before fields isRequest
  · cases List.mem_singleton.mp new
    exact own fields isRequest

theorem Move.matched (move : Move leaks stays False known st st') (bound : Bound known st)
    (matched : Matched st) : Bound known st' ∧ Matched st' := by
  cases move with
  | quiet sessions live made _ sent =>
      refine ⟨bound.of_less (Nat.le_of_eq made.symm) fun fields s _ found => ?_, ?_⟩
      · exact (congrArg (AList.lookup fields.uid) sessions).symm.trans found
      · rcases sent with same | ⟨message, same, none, -⟩
        · exact fun message mem => matched message (same ▸ mem)
        · exact matched.send (fun fields isRequest => by cases none.symm.trans isRequest) same
  | create uid mech new may =>
      refine ⟨bound.of_less (Nat.le_succ _) fun fields s isKnown found => ?_, matched⟩
      rwa [getSession_newSession, if_neg (may.resolve_left id fields isKnown)] at found
  | refuse uid mech new =>
      refine ⟨bound.of_less (Nat.le_succ _) fun fields s _ found => ?_, ?_⟩
      · obtain ⟨differ, found⟩ := getSession_deleteSession_iff.mp found
        exact (if_neg differ ▸ getSession_newSession st uid fields.uid mech).symm.trans found
      · exact matched.send (fun fields isRequest => by cases isRequest) rfl
  | drop uid s found =>
      exact ⟨bound.of_less (Nat.le_refl _) fun _ _ _ found' =>
        (getSession_deleteSession_iff.mp found').2, matched⟩
  | finish uid s reply request found own =>
      refine ⟨bound.of_less (Nat.le_refl _) fun _ _ _ found' =>
        (getSession_deleteSession_iff.mp found').2, ?_⟩
      refine matched.send (fun fields isRequest => ?_) rfl
      obtain ⟨isKnown, rfl⟩ := own fields isRequest
      exact congrArg some ((bound fields isKnown).2 s found)
  | leak uid _ =>
      exact ⟨bound.of_less (Nat.le_refl _) fun _ _ _ found =>
        (getSession_removeSession.mp found).2, matched⟩
  | stay uid s reply found _ =>
      exact ⟨bound, matched.send (fun fields isRequest => by cases isRequest) rfl⟩

end Invariants

/-! ## Runs -/

section Runs

variable [DecidableEq μ] {setup : Setup μ} {st next : State υ μ α} {action : Step υ μ α}

theorem sound_step (sound : Sound st) (stepped : step setup st action = some next) : Sound next :=
  (moves_step setup stepped).keeps Move.sound sound

/-- What is asked for by a client that has a session and asks for an unknown mechanism. -/
theorem processMessage_unknown {m : Message υ} {hooks : List (Hook μ α)} (type : m.type = .S)
    (unknown : m.data.head?.map st.world.mechs = some none) :
    st.processMessage setup m hooks =
      (((st.sendMessage none m.source .mechs none).sendMessage none m.source .failure
        none).removeSession m.source) := by
  obtain ⟨first, isFirst, isMech⟩ := Option.map_eq_some_iff.mp unknown
  obtain ⟨rest, isData⟩ := List.head?_eq_some_iff.mp isFirst
  simp [State.processMessage, isData, type, isMech]

theorem noneLost_step_iff (sound : Sound st) (noneLost : NoneLost st)
    (stepped : step setup st action = some next) : NoneLost next ↔ ¬Leaks st action := by
  constructor
  · intro after leaks
    cases action with
    | message m hooks =>
        cases stepped
        obtain ⟨type, unknown, hasSession⟩ := leaks
        obtain ⟨s, found⟩ := Option.isSome_iff_exists.mp hasSession
        rw [processMessage_unknown type unknown] at after
        have isFound := after s m.source (sound.table found)
        exact (getSession_removeSession.mp isFound).1 rfl
    | time | world | tick | unloadMechanism | hook | unloadModule => exact leaks
  · intro none
    have moves := moves_step setup stepped
    rw [eq_false none] at moves
    exact moves.keeps Move.noneLost noneLost

theorem once_step_iff (sound : Sound st) (once : Once st)
    (stepped : step setup st action = some next) : Once next ↔ ¬Stays st action := by
  constructor
  · intro after stays
    cases action with
    | message m hooks =>
        cases stepped
        obtain ⟨type, nonempty, isMech⟩ := stays
        obtain ⟨session, isSession, isMech⟩ := Option.bind_eq_some_iff.mp isMech
        obtain ⟨s, found, isLive⟩ := Option.bind_eq_some_iff.mp isSession
        have replied : st.processMessage setup m hooks =
            st.sendMessage (some s) m.source (.success none) none := by
          obtain ⟨first, rest, isData⟩ := List.exists_cons_of_ne_nil nonempty
          simp [State.processMessage, State.mechMessage, State.anonymous, isData, type, found,
            isLive, isMech]
        rw [replied] at after
        have ended := after.live (sound.table found)
        rw [State.sendMessage, endings_append, if_pos ⟨rfl, rfl⟩] at ended
        cases ended
    | time | world | tick | unloadMechanism | hook | unloadModule => exact stays
  · intro none
    have moves := moves_step setup stepped
    rw [eq_false none] at moves
    have both := moves.keeps (fun {st st'} move (both : Sound st ∧ Once st) =>
      ⟨move.sound both.1, move.once both.1 both.2⟩) ⟨sound, once⟩
    exact both.2

/-- A session begins with a message that the mechanism accepts. -/
theorem begin_getSession {m : Message υ} {hooks : List (Hook μ α)} {mech : Mechanism}
    (type : m.type = .S) (long : ¬(mech = .external ∧ m.data.length < 2)) :
    let next := (st.newSession m.source (some mech)).mechMessage setup st.made m hooks
    next.getSession m.source = some st.made ∧ next.reqs = st.reqs := by
  have found : (st.newSession m.source (some mech)).getSession m.source = some st.made := by
    rw [getSession_newSession, if_pos rfl]
  have isLive : (st.newSession m.source (some mech)).live st.made =
      some ⟨st.now, m.source, some mech, []⟩ := Function.update_self ..
  dsimp only
  rw [State.mechMessage, isLive]
  cases mech with
  | plain =>
      simp only [State.plain, type]
      exact ⟨found, rfl⟩
  | external =>
      simp only [State.external, type, if_neg fun short => long ⟨rfl, short⟩]
      exact ⟨found, rfl⟩
  | anonymous =>
      simp only [State.anonymous, type]
      exact ⟨found, rfl⟩

/-- A new session takes the place of the one in which the requests of its uid were made. -/
theorem restarts_getSession (setup : Setup μ) {m : Message υ} {hooks : List (Hook μ α)}
    (restarts : Restarts st (.message m hooks)) :
    (st.processMessage setup m hooks).getSession m.source = some st.made ∧
      (st.processMessage setup m hooks).reqs = st.reqs := by
  obtain ⟨-, ⟨type, mech, isMech, long⟩ | ⟨type, nonempty, new⟩⟩ := restarts
  · obtain ⟨first, isFirst, isMech⟩ := Option.bind_eq_some_iff.mp isMech
    obtain ⟨rest, isData⟩ := List.head?_eq_some_iff.mp isFirst
    unfold State.processMessage
    rw [isData]
    simp only [type, isMech]
    cases st.getSession m.source with
    | none => exact begin_getSession type long
    | some s => exact begin_getSession type long
  · obtain ⟨first, rest, isData⟩ := List.exists_cons_of_ne_nil nonempty
    unfold State.processMessage
    rw [isData]
    simp only [type, new]
    exact ⟨(getSession_newSession ..).trans (if_pos rfl), rfl⟩

/-- The requests that are not over belong to the sessions of their uids. -/
abbrev Own (st : State υ μ α) : Prop :=
  Bound (fun fields => ∃ r request, st.reqs.requests r = some request ∧ request.fields = fields) st

theorem own_step_iff (sound : Sound st) (own : Own st ∧ Matched st)
    (stepped : step setup st action = some next) :
    Own next ∧ Matched next ↔ ¬Restarts st action := by
  constructor
  · rintro ⟨after, -⟩ restarts
    cases action with
    | message m hooks =>
        cases stepped
        obtain ⟨r, request, isLive, isUid⟩ := restarts.1
        obtain ⟨found, reqs⟩ := restarts_getSession setup restarts
        have isLive' : (st.processMessage setup m hooks).reqs.requests r = some request := by
          rw [reqs, isLive]
        have same : st.made = request.fields.session :=
          (after request.fields ⟨r, request, isLive', rfl⟩).2 _ (isUid ▸ found)
        have older : request.fields.session < st.made :=
          (own.1 request.fields ⟨r, request, isLive, rfl⟩).1
        omega
    | time | world | tick | unloadMechanism | hook | unloadModule => exact restarts
  · intro none
    have bound : Bound (Known st action) st := by
      rintro fields (isLive | ⟨-, found⟩)
      · exact own.1 fields isLive
      · refine ⟨sound.lt_made found, fun s found' => ?_⟩
        exact Option.some.inj (found'.symm.trans found)
    have moves := moves_step setup stepped
    rw [eq_false none] at moves
    obtain ⟨bound, matched⟩ := moves.keeps (fun {st st'} move (both : Bound _ st ∧ Matched st) =>
      move.matched both.1 both.2) ⟨bound, own.2⟩
    refine ⟨?_, matched⟩
    rintro fields ⟨r, request, isLive, rfl⟩
    exact bound request.fields (moves.covered covered_known r request isLive)

variable (setup) (world : World α) (actions : List (Step υ μ α))

omit [DecidableEq μ] in
theorem sound_initial : Sound (State.initial world : State υ μ α) :=
  ⟨(nomatch ·), fun _ => rfl⟩

/-- The table never leads to a session that is gone or that is one of another uid. -/
theorem always_sound : Always (step setup) Sound (State.initial world : State υ μ α) actions :=
  always_of_step sound_step (sound_initial world) actions

/-- Every live session stays in the table exactly in the runs in which no client with a session
asks for a mechanism that is not there. -/
theorem always_noneLost_iff :
    Always (step setup) NoneLost (State.initial world : State υ μ α) actions ↔
      EachStep (step setup) (fun st action => ¬Leaks st action) (.initial world) actions :=
  always_iff_eachStep Sound sound_step noneLost_step_iff (sound_initial world)
    (fun _ _ => nofun) actions

/-- A session is over with the message that ends it, and no session is ended twice, exactly in the
runs in which no client answers the challenge of `ANONYMOUS`. -/
theorem always_once_iff :
    Always (step setup) Once (State.initial world : State υ μ α) actions ↔
      EachStep (step setup) (fun st action => ¬Stays st action) (.initial world) actions :=
  always_iff_eachStep Sound sound_step once_step_iff (sound_initial world)
    ⟨(nomatch ·), fun _ => Nat.zero_le 1, fun _ => rfl⟩ actions

/-- The answer to a request goes to the session in which it was made, exactly in the runs in which
no session begins for a uid with a request that is not over. -/
theorem always_own_iff :
    Always (step setup) (fun st => Own st ∧ Matched st) (State.initial world : State υ μ α)
        actions ↔
      EachStep (step setup) (fun st action => ¬Restarts st action) (.initial world) actions :=
  always_iff_eachStep Sound sound_step own_step_iff (sound_initial world)
    ⟨fun _ ⟨_, _, isLive, _⟩ => (nomatch isLive), fun _ mem => (nomatch mem)⟩ actions

end Runs

end Anope.Account.Sasl
