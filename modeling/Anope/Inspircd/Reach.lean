import Anope.Inspircd.Dispatch

/-!
# Reading within a message

Every handler reads the parameters that it has and a source that is there, but for the messages
that exceed what their handlers declare.
-/

namespace Anope.Inspircd

open Anope.Text
open Anope.Text.Match (globMatch)
open Library.Scan

variable {υ σ χ κ : Type} {env : Env υ σ χ κ} {source : Source υ σ} {params : List Str}
  {tags : Str → Option Str}

/-! ## Checked reads -/

section Reads

variable {α β : Type}

@[simp] theorem inBounds_pure (value : α) : InBounds (pure value : Result α) :=
  inBounds_ok value

theorem inBounds_param {index : Nat} (bound : index < params.length) :
    InBounds (param params index) := by
  rw [param, List.getElem?_eq_getElem bound]
  exact inBounds_ok _

theorem inBounds_param_bind {index : Nat} {next : Str → Result β} (bound : index < params.length)
    (rest : ∀ text, InBounds (next text)) : InBounds (param params index >>= next) :=
  inBounds_bind_iff.mpr ⟨inBounds_param bound, fun text _ => rest text⟩

theorem inBounds_range_bind {first behind : Nat} {next : List Str → Result β}
    (fits : first + behind ≤ params.length) (rest : ∀ texts, InBounds (next texts)) :
    InBounds (range params first behind >>= next) := by
  rw [range, if_pos fits]
  exact rest _

theorem inBounds_deref_bind {pointer : Option α} {next : α → Result β}
    (there : pointer.isSome = true) (rest : ∀ object, InBounds (next object)) :
    InBounds (deref pointer >>= next) := by
  obtain ⟨object, rfl⟩ := Option.isSome_iff_exists.mp there
  exact rest object

theorem inBounds_extractTimestamp_bind {text : Str} {next : Int → Result β}
    (rest : ∀ ts, InBounds (next ts)) : InBounds (extractTimestamp text >>= next) := by
  rw [extractTimestamp]
  cases timestampOf text with
  | none => exact inBounds_thrown _
  | some ts => exact rest ts

theorem inBounds_require_bind {condition : Prop} [Decidable condition] {reason : String}
    {next : Unit → Result β} (rest : InBounds (next ())) :
    InBounds (require condition reason >>= next) :=
  inBounds_bind_iff.mpr ⟨inBounds_require, fun _ _ => rest⟩

theorem inBounds_optional_bind {index : Nat} {next : Str → Result β}
    (rest : ∀ text, InBounds (next text)) : InBounds (optional params index >>= next) := by
  rw [optional]
  split
  · exact inBounds_param_bind (by assumption) rest
  · exact rest []

end Reads

/-! ## The handlers that read what they have -/

section Handlers

theorem inBounds_away (isUser : source.user.isSome = true) :
    InBounds (away source params : Result (List (Call υ σ χ κ))) := by
  refine inBounds_deref_bind isUser fun u => ?_
  split
  · refine inBounds_param_bind (by omega) fun message => ?_
    refine inBounds_param_bind (by omega) fun text => ?_
    exact inBounds_extractTimestamp_bind fun ts => inBounds_pure _
  · exact inBounds_pure _

theorem inBounds_change (enough : 2 ≤ params.length) (calls : υ → Str → List (Call υ σ χ κ)) :
    InBounds (change env params calls) := by
  refine inBounds_param_bind (by omega) fun target => ?_
  cases env.findUser target with
  | none => exact inBounds_pure _
  | some u =>
      dsimp only
      split
      · exact inBounds_param_bind (by omega) fun value => inBounds_pure _
      · exact inBounds_pure _

theorem inBounds_fHost (isUser : source.user.isSome = true) (enough : 1 ≤ params.length) :
    InBounds (fHost env source params) := by
  refine inBounds_param_bind enough fun host => inBounds_bind_iff.mpr ⟨?_, fun displayed _ => ?_⟩
  · rw [showHost]
    split
    · exact inBounds_pure _
    · refine inBounds_deref_bind isUser fun u => ?_
      split
      · exact inBounds_pure _
      · exact inBounds_pure _
  · split
    · refine inBounds_param_bind (by assumption) fun real => ?_
      split
      · exact inBounds_pure _
      · exact inBounds_deref_bind isUser fun u => inBounds_pure _
    · exact inBounds_pure _

theorem inBounds_fIdent (isUser : source.user.isSome = true) (enough : 1 ≤ params.length) :
    InBounds (fIdent source params : Result (List (Call υ σ χ κ))) := by
  refine inBounds_param_bind enough fun ident => ?_
  split
  · exact inBounds_pure _
  · exact inBounds_deref_bind isUser fun u => inBounds_pure _

theorem inBounds_fName (isUser : source.user.isSome = true) (enough : 1 ≤ params.length) :
    InBounds (fName source params : Result (List (Call υ σ χ κ))) :=
  inBounds_deref_bind isUser fun _ => inBounds_param_bind enough fun _ => inBounds_pure _

theorem inBounds_nick (isUser : source.user.isSome = true) (enough : 1 ≤ params.length) :
    InBounds (nick source params : Result (List (Call υ σ χ κ))) :=
  inBounds_deref_bind isUser fun _ => inBounds_param_bind enough fun _ => inBounds_pure _

theorem inBounds_operType (isUser : source.user.isSome = true) (enough : 1 ≤ params.length) :
    InBounds (operType env source params tags) :=
  inBounds_deref_bind isUser fun _ => inBounds_param_bind enough fun _ => inBounds_pure _

theorem inBounds_save (enough : 2 ≤ params.length) : InBounds (save env params) := by
  refine inBounds_param_bind (by omega) fun target => ?_
  refine inBounds_param_bind (by omega) fun text => inBounds_extractTimestamp_bind fun ts => ?_
  cases env.findUser target with
  | none => exact inBounds_pure _
  | some targ =>
      dsimp only
      split
      · exact inBounds_pure _
      · split
        · exact inBounds_require_bind (inBounds_pure _)
        · exact inBounds_pure _

theorem inBounds_rSQuit (enough : 1 ≤ params.length) : InBounds (rSQuit env params) := by
  refine inBounds_param_bind enough fun name => inBounds_optional_bind fun reason => ?_
  cases env.findServer name with
  | none => exact inBounds_pure _
  | some s => exact inBounds_pure _

theorem inBounds_server (enough : 3 ≤ params.length) : InBounds (server env source params) := by
  rw [server]
  cases source.server with
  | none =>
      dsimp only
      split
      · refine inBounds_param_bind (by omega) fun name => ?_
        refine inBounds_param_bind (by omega) fun description => ?_
        exact inBounds_param_bind (by omega) fun sid => inBounds_pure _
      · exact inBounds_pure _
  | some s =>
      refine inBounds_param_bind (by omega) fun name => ?_
      refine inBounds_param_bind (by omega) fun description => ?_
      exact inBounds_param_bind (by omega) fun sid => inBounds_pure _

theorem inBounds_sQuit (enough : 1 ≤ params.length) : InBounds (sQuit env params) := by
  refine inBounds_param_bind enough fun name => ?_
  split
  · cases env.findServer env.rsquitServer with
    | none => exact inBounds_pure _
    | some s => exact inBounds_pure _
  · cases env.findServer name with
    | none => exact inBounds_pure _
    | some s =>
        dsimp only
        split
        · exact inBounds_pure _
        · exact inBounds_pure _

theorem inBounds_kick (enough : 3 ≤ params.length) : InBounds (kick env params) := by
  refine inBounds_param_bind (by omega) fun channel => ?_
  cases env.findChannel channel with
  | none => exact inBounds_pure _
  | some c =>
      refine inBounds_bind_iff.mpr ⟨?_, fun reason _ =>
        inBounds_param_bind (by omega) fun who => inBounds_pure _⟩
      split
      · exact inBounds_param (by assumption)
      · exact inBounds_param (by omega)

theorem inBounds_fMode (enough : 3 ≤ params.length) : InBounds (fMode env params) := by
  refine inBounds_param_bind (by omega) fun channel => ?_
  refine inBounds_param_bind (by omega) fun text => inBounds_extractTimestamp_bind fun ts => ?_
  cases env.findChannel channel with
  | none => exact inBounds_pure _
  | some c =>
      refine inBounds_param_bind (by omega) fun modes => ?_
      exact inBounds_range_bind (by omega) fun modeParams => inBounds_pure _

theorem inBounds_fTopic (enough : 4 ≤ params.length) : InBounds (fTopic env source params) := by
  refine inBounds_param_bind (by omega) fun text => inBounds_extractTimestamp_bind fun ts => ?_
  refine inBounds_bind_iff.mpr ⟨?_, fun setBy _ => inBounds_bind_iff.mpr ⟨?_, fun topic _ => ?_⟩⟩
  · split
    · exact inBounds_param (by omega)
    · exact inBounds_pure _
  · split
    · exact inBounds_param (by assumption)
    · exact inBounds_param (by omega)
  · refine inBounds_param_bind (by omega) fun channel => ?_
    cases env.findChannel channel with
    | none => exact inBounds_pure _
    | some c => exact inBounds_pure _

theorem inBounds_idle (enough : 1 ≤ params.length) : InBounds (idle env source params) := by
  refine inBounds_param_bind enough fun who => ?_
  cases env.findBot who with
  | some bi => exact inBounds_pure _
  | none =>
      cases env.findUser who with
      | none => exact inBounds_pure _
      | some u => exact inBounds_pure _

theorem inBounds_iJoin (isUser : source.user.isSome = true) (enough : 2 ≤ params.length) :
    InBounds (iJoin env source params) := by
  refine inBounds_param_bind (by omega) fun channel => ?_
  cases env.findChannel channel with
  | none => exact inBounds_pure _
  | some c =>
      refine inBounds_deref_bind isUser fun u => ?_
      split
      · refine inBounds_param_bind (by omega) fun text => ?_
        refine inBounds_extractTimestamp_bind fun chants => ?_
        exact inBounds_param_bind (by omega) fun status => inBounds_pure _
      · exact inBounds_pure _

/-- The loop of `LMODE` ends at the end of its parameters. -/
theorem inBounds_lModeLoop (c : χ) (mode : UInt8) :
    ∀ changes : List Str, changes.length % 3 = 0 →
      InBounds (lModeLoop c mode changes : Result (List (Call υ σ χ κ)))
  | [], _ => inBounds_ok _
  | [_], triples => absurd triples (by simp)
  | [_, _], triples => absurd triples (by simp)
  | _ :: _ :: _ :: changes, triples => by
      have rest := inBounds_lModeLoop c mode changes (by
        simp only [List.length_cons] at triples
        omega)
      exact inBounds_bind_iff.mpr ⟨rest, fun calls _ => inBounds_pure _⟩

theorem inBounds_lMode (enough : 3 ≤ params.length) : InBounds (lMode env params) := by
  refine inBounds_param_bind (by omega) fun channel => ?_
  cases env.findChannel channel with
  | none => exact inBounds_pure _
  | some chan =>
      refine inBounds_param_bind (by omega) fun text => ?_
      refine inBounds_extractTimestamp_bind fun chants => ?_
      split
      · exact inBounds_pure _
      · refine inBounds_param_bind (by omega) fun modes => ?_
        split
        · exact inBounds_pure _
        · split
          · exact inBounds_pure _
          · rename_i triples
            rw [range, if_pos (by omega)]
            refine inBounds_lModeLoop chan (first modes) _ ?_
            rw [List.length_take, List.length_drop]
            omega

theorem inBounds_sasl (enough : 4 ≤ params.length) : InBounds (sasl env params) := by
  rw [sasl]
  split
  · refine inBounds_param_bind (by omega) fun agent => ?_
    refine inBounds_param_bind (by omega) fun target => ?_
    refine inBounds_param_bind (by omega) fun type => ?_
    exact inBounds_range_bind (by omega) fun data => inBounds_pure _
  · exact inBounds_pure _

end Handlers

/-! ## The handlers that read more -/

section Exact

variable {α β : Type}

theorem inBounds_bind_of_ok {result : Result α} {value : α} {next : α → Result β}
    (isOk : result = .ok value) : InBounds (result >>= next) ↔ InBounds (next value) := by
  rw [isOk]
  rfl

theorem param_eq_ok {index : Nat} {text : Str} (at_index : params[index]? = some text) :
    param params index = .ok text := by
  rw [param, at_index]

theorem not_inBounds_param_bind {index : Nat} {next : Str → Result β}
    (short : params.length ≤ index) : ¬ InBounds (param params index >>= next) := by
  rw [param, List.getElem?_eq_none short]
  exact not_inBounds

theorem not_inBounds_range_bind {first behind : Nat} {next : List Str → Result β}
    (short : params.length < first + behind) : ¬ InBounds (range params first behind >>= next) := by
  rw [range, if_neg (Nat.not_le.mpr short)]
  exact not_inBounds

theorem inBounds_capabStart (what : Str) :
    InBounds (capabStart params what : Result (List (Call υ σ χ κ))) := by
  rw [capabStart]
  split
  · refine inBounds_bind_iff.mpr ⟨?_, fun version _ => inBounds_require_bind (inBounds_pure _)⟩
    rw [capabVersion]
    split
    · exact inBounds_param_bind (by omega) fun text => inBounds_pure _
    · exact inBounds_pure _
  · split
    · rename_i long
      exact inBounds_param_bind long.2 fun text => inBounds_pure _
    · exact inBounds_pure _

theorem inBounds_capabRest_iff (what : Str) : InBounds (capabRest env params what) ↔
    (what = ascii "EXTBANS" → 1 < params.length) := by
  rw [capabRest]
  split
  · rename_i long
    exact iff_of_true (inBounds_param_bind long.2 fun text => inBounds_pure _) fun _ => long.2
  · split
    · rename_i extBans
      by_cases long : 1 < params.length
      · exact iff_of_true (inBounds_param_bind long fun text => inBounds_pure _) fun _ => long
      · exact iff_of_false (not_inBounds_param_bind (Nat.le_of_not_lt long))
          fun enough => long (enough extBans)
    · rename_i notExtBans
      refine iff_of_true ?_ fun extBans => absurd extBans notExtBans
      split
      · rename_i long
        exact inBounds_param_bind long.2 fun text => inBounds_pure _
      · split
        · rename_i long
          exact inBounds_param_bind long.2 fun text => inBounds_pure _
        · split
          · refine inBounds_require_bind (inBounds_require_bind (inBounds_require_bind ?_))
            exact inBounds_pure _
          · exact inBounds_pure _

theorem inBounds_capab_iff (enough : 1 ≤ params.length) :
    InBounds (capab env params) ↔ params ≠ [ascii "EXTBANS"] := by
  obtain ⟨what, rest, rfl⟩ := List.exists_cons_of_length_pos enough
  have reads : InBounds (capab env (what :: rest)) ↔
      (what = ascii "EXTBANS" → 1 < (what :: rest).length) := by
    rw [capab, inBounds_bind_of_ok (param_eq_ok rfl), inBounds_bind_iff]
    constructor
    · rintro ⟨_, after⟩ isExtBans
      have noStart : what ≠ ascii "START" := by
        rw [isExtBans]
        decide
      have noChanModes : ¬(what = ascii "CHANMODES" ∧ 1 < (what :: rest).length) := by
        rw [isExtBans]
        exact fun both => absurd both.1 (by decide)
      have started : capabStart (what :: rest) what =
          (.ok [] : Result (List (Call υ σ χ κ))) := by
        rw [capabStart, if_neg noStart, if_neg noChanModes]
        rfl
      have reads := (inBounds_bind_iff.mp (after [] started)).1
      exact (inBounds_capabRest_iff what).mp reads isExtBans
    · intro long
      refine ⟨inBounds_capabStart what, fun start _ => inBounds_bind_iff.mpr ⟨?_, fun calls _ =>
        inBounds_pure _⟩⟩
      exact (inBounds_capabRest_iff what).mpr long
  rw [reads, ne_eq, List.cons.injEq, not_and]
  refine imp_congr_right fun _ => ?_
  cases rest with
  | nil => simp
  | cons second rest => simp

theorem inBounds_extractTimestamp_bind_iff {text : Str} {next : Int → Result β} :
    InBounds (extractTimestamp text >>= next) ↔
      ∀ ts, timestampOf text = some ts → InBounds (next ts) := by
  rw [extractTimestamp]
  cases timestampOf text with
  | none => exact iff_of_true (inBounds_thrown _) fun _ is => by cases is
  | some ts => exact ⟨fun rest _ is => by cases is; exact rest, fun rest => rest ts rfl⟩

/-- What reads a timestamp first, and then too much when there are too few parameters. -/
theorem not_short_and_hasTimestamp_iff {index few : Nat} (bound : index < params.length)
    {P : Int → Prop} (holds : ∀ ts, P ts ↔ few ≤ params.length) :
    (∀ ts, timestampOf params[index] = some ts → P ts) ↔
      ¬(params.length < few ∧ HasTimestamp params index) := by
  have hasTimestamp : HasTimestamp params index ↔ ∃ ts, timestampOf params[index] = some ts := by
    rw [HasTimestamp, List.getElem?_eq_getElem bound]
    simp [Option.isSome_iff_exists]
  rw [hasTimestamp]
  constructor
  · rintro each ⟨short, ts, isTimestamp⟩
    exact Nat.not_le.mpr short ((holds ts).mp (each ts isTimestamp))
  · intro notShort ts isTimestamp
    refine (holds ts).mpr (Nat.le_of_not_lt fun short => notShort ⟨short, ts, isTimestamp⟩)

theorem inBounds_fJoin_iff (enough : 2 ≤ params.length) :
    InBounds (fJoin env params) ↔ ¬(params.length < 4 ∧ HasTimestamp params 1) := by
  rw [fJoin, inBounds_bind_of_ok (param_eq_ok (List.getElem?_eq_getElem (by omega))),
    inBounds_bind_of_ok (param_eq_ok (List.getElem?_eq_getElem (by omega))),
    inBounds_bind_of_ok (param_eq_ok (List.getElem?_eq_getElem enough)),
    inBounds_extractTimestamp_bind_iff]
  refine not_short_and_hasTimestamp_iff enough fun ts => ?_
  by_cases long : 4 ≤ params.length
  · refine iff_of_true (inBounds_param_bind (by omega) fun modes => ?_) long
    exact inBounds_range_bind long fun modeParams => inBounds_pure _
  · refine iff_of_false (fun reads => ?_) long
    by_cases hasModes : 2 < params.length
    · rw [inBounds_bind_of_ok (param_eq_ok (List.getElem?_eq_getElem hasModes))] at reads
      exact not_inBounds_range_bind (by omega) reads
    · exact not_inBounds_param_bind (Nat.le_of_not_lt hasModes) reads

theorem inBounds_signonOf (enough : 9 ≤ params.length) (nick id : Str) :
    InBounds (signonOf env params nick id) := by
  rw [signonOf]
  split
  · refine inBounds_param_bind enough fun text => ?_
    exact inBounds_extractTimestamp_bind fun signon => inBounds_pure _
  · exact inBounds_pure _

theorem inBounds_uid_iff (enough : 8 ≤ params.length) :
    InBounds (uid env source params) ↔ ¬(params.length < 11 ∧ HasTimestamp params 1) := by
  have second : 1 < params.length := by omega
  rw [uid, inBounds_bind_of_ok (param_eq_ok (List.getElem?_eq_getElem second)),
    inBounds_extractTimestamp_bind_iff]
  refine not_short_and_hasTimestamp_iff second fun ts => ?_
  by_cases long : 11 ≤ params.length
  · refine iff_of_true ?_ long
    refine inBounds_param_bind (by omega) fun id => inBounds_param_bind (by omega) fun nick => ?_
    refine inBounds_param_bind (by omega) fun ident => inBounds_param_bind (by omega) fun host => ?_
    refine inBounds_param_bind (by omega) fun vhost => inBounds_param_bind (by omega) fun ip => ?_
    refine inBounds_param_bind (by omega) fun realname => ?_
    refine inBounds_param_bind (by omega) fun modes => ?_
    refine inBounds_range_bind (by omega) fun modeParams => ?_
    exact inBounds_bind_iff.mpr ⟨inBounds_signonOf (by omega) nick id, fun signon _ =>
      inBounds_pure _⟩
  · refine iff_of_false (fun reads => ?_) long
    -- The parameters that are declared are there, and so is the last one.
    rw [inBounds_bind_of_ok (param_eq_ok (List.getElem?_eq_getElem (by omega))),
      inBounds_bind_of_ok (param_eq_ok (List.getElem?_eq_getElem (by omega))),
      inBounds_bind_of_ok (param_eq_ok (List.getElem?_eq_getElem (by omega))),
      inBounds_bind_of_ok (param_eq_ok (List.getElem?_eq_getElem (by omega))),
      inBounds_bind_of_ok (param_eq_ok (List.getElem?_eq_getElem (by omega))),
      inBounds_bind_of_ok (param_eq_ok (List.getElem?_eq_getElem (by omega))),
      inBounds_bind_of_ok (param_eq_ok (List.getElem?_eq_getElem (by omega)))] at reads
    by_cases hasModes : 9 < params.length
    · rw [inBounds_bind_of_ok (param_eq_ok (List.getElem?_eq_getElem hasModes))] at reads
      exact not_inBounds_range_bind (by omega) reads
    · exact not_inBounds_param_bind (Nat.le_of_not_lt hasModes) reads

theorem inBounds_mode_iff (enough : 2 ≤ params.length) : InBounds (mode env params) ↔
    ¬(params.length = 2 ∧ ∃ target, params[0]? = some target ∧
      isChannelValid env target = true ∧ (env.findChannel target).isSome) := by
  have bound : 0 < params.length := by omega
  have isFirst := List.getElem?_eq_getElem bound
  rw [mode, inBounds_bind_of_ok (param_eq_ok isFirst), isFirst]
  simp only [Option.some.injEq, exists_eq_left']
  cases valid : isChannelValid env params[0] with
  | false =>
      refine iff_of_true ?_ fun both => absurd both.2.1 Bool.false_ne_true
      rw [if_neg Bool.false_ne_true]
      cases env.findUser params[0] with
      | none => exact inBounds_pure _
      | some u => exact inBounds_param_bind (by omega) fun modes => inBounds_pure _
  | true =>
      rw [if_pos rfl]
      cases env.findChannel params[0] with
      | none => exact iff_of_true (inBounds_pure _) fun both => absurd both.2.2 Bool.false_ne_true
      | some c =>
          dsimp only
          by_cases two : params.length = 2
          · refine iff_of_false (not_inBounds_param_bind (by omega)) ?_
            exact fun notTwo => notTwo ⟨two, rfl, rfl⟩
          · refine iff_of_true ?_ fun both => two both.1
            refine inBounds_param_bind (by omega) fun modes => ?_
            exact inBounds_range_bind (by omega) fun modeParams => inBounds_pure _

theorem inBounds_endburst_iff :
    InBounds (endburst source : Result (List (Call υ σ χ κ))) ↔ ¬source.server = none := by
  rw [endburst]
  cases source.server with
  | none => exact iff_of_false not_inBounds fun present => present rfl
  | some s => exact iff_of_true (inBounds_pure _) fun absent => by cases absent

theorem inBounds_ping_iff (enough : 1 ≤ params.length) : InBounds (ping env source params) ↔
    ¬(source.server = none ∧ params[0]? = some (env.sid env.me)) := by
  have isFirst := List.getElem?_eq_getElem (Nat.lt_of_lt_of_le Nat.zero_lt_one enough)
  rw [ping, inBounds_bind_of_ok (param_eq_ok isFirst), isFirst, Option.some.injEq]
  by_cases isMe : params[0] = env.sid env.me
  · rw [if_pos isMe]
    cases source.server with
    | none => exact iff_of_false not_inBounds fun present => present ⟨rfl, isMe⟩
    | some s => exact iff_of_true (inBounds_pure _) fun absent => by cases absent.1
  · rw [if_neg isMe]
    exact iff_of_true (inBounds_pure _) fun both => isMe both.2

/-- A value is read after its key. -/
theorem inBounds_value (enough : 2 ≤ params.length) (index : Nat)
    {next : Str → Str → Result (List (Call υ σ χ κ))}
    (rest : ∀ value key, InBounds (next value key)) :
    InBounds (do
      let value ← optional params index
      let key ← param params 1
      next value key) :=
  inBounds_optional_bind fun value => inBounds_param_bind enough fun key => rest value key

theorem inBounds_metadata_iff (enough : 2 ≤ params.length) :
    InBounds (metadata env source params) ↔ ¬(3 ≤ params.length ∧ source.server = none ∧
      ∃ target, params[0]? = some target ∧ first target = 35) := by
  have bound : 0 < params.length := by omega
  have isFirst := List.getElem?_eq_getElem bound
  rw [metadata, inBounds_bind_of_ok (param_eq_ok isFirst), isFirst]
  simp only [Option.some.injEq, exists_eq_left']
  have branches : ∀ {c1 c2 : Prop} [Decidable c1] [Decidable c2]
      (call1 call2 : Call υ σ χ κ), InBounds (if c1 then return [call1]
        else if c2 then return [call2] else return [] : Result (List (Call υ σ χ κ))) := by
    intro c1 c2 _ _ call1 call2
    split
    · exact inBounds_pure _
    · split
      · exact inBounds_pure _
      · exact inBounds_pure _
  by_cases isChannel : first params[0] = 35
  · rw [if_pos isChannel]
    by_cases few : params.length < 3
    · rw [if_pos few]
      exact iff_of_true (inBounds_pure _) fun many => absurd many.1 (Nat.not_le.mpr few)
    · rw [if_neg few]
      cases source.server with
      | none =>
          exact iff_of_false not_inBounds fun notAll =>
            notAll ⟨Nat.le_of_not_lt few, rfl, isChannel⟩
      | some s =>
          refine iff_of_true ?_ fun absent => by cases absent.2.1
          refine inBounds_deref_bind rfl fun s => ?_
          split
          · exact inBounds_pure _
          · cases env.findChannel params[0] with
            | none => exact inBounds_param_bind (by omega) fun text => inBounds_pure _
            | some c => exact inBounds_value enough 3 fun value key => branches _ _
  · rw [if_neg isChannel]
    refine iff_of_true ?_ fun all => isChannel all.2.2
    split
    · cases env.findUser params[0] with
      | none => exact inBounds_param_bind enough fun text => inBounds_pure _
      | some u => exact inBounds_value enough 2 fun value key => branches _ _
    · split
      · cases source.server with
        | none => exact inBounds_param_bind enough fun text => inBounds_pure _
        | some s => exact inBounds_value enough 2 fun value key => branches _ _
      · exact inBounds_pure _

end Exact

/-! ## All messages -/

/-- What the checks say about the parameters. -/
theorem Message.enough_of_accepts {m : Message} (accepted : m.accepts source params = true) :
    m.declared.paramCount ≤ params.length := by
  obtain ⟨counts, _⟩ := of_decide_eq_true accepted
  split at counts
  · exact counts
  · exact counts.ge

theorem Message.isUser_of_accepts {m : Message} (accepted : m.accepts source params = true)
    (requires : m.declared.requireUser = true) : source.user.isSome = true :=
  (of_decide_eq_true accepted).2.1 requires

/-- An accepted message is read within its parameters unless it exceeds what its handler
declares. -/
theorem Message.inBounds_run_iff {m : Message} (accepted : m.accepts source params = true)
    (inner : Str → List Str → Result (List (Call υ σ χ κ))) (notEncap : m ≠ .encap) :
    InBounds (m.run env source tags inner params) ↔ ¬m.Exceeds env source params := by
  have enough := Message.enough_of_accepts accepted
  have isUser := Message.isUser_of_accepts accepted
  cases m with
  | encap => exact absurd rfl notEncap
  | capab => exact inBounds_capab_iff enough
  | fJoin => exact inBounds_fJoin_iff enough
  | uid => exact inBounds_uid_iff enough
  | mode => exact inBounds_mode_iff enough
  | metadata => exact inBounds_metadata_iff enough
  | endburst => exact inBounds_endburst_iff
  | ping => exact inBounds_ping_iff enough
  | away => exact iff_of_true (inBounds_away (isUser rfl)) id
  | chgHost => exact iff_of_true (inBounds_change enough _) id
  | chgIdent => exact iff_of_true (inBounds_change enough _) id
  | chgName => exact iff_of_true (inBounds_change enough _) id
  | fHost => exact iff_of_true (inBounds_fHost (isUser rfl) enough) id
  | fIdent => exact iff_of_true (inBounds_fIdent (isUser rfl) enough) id
  | fName => exact iff_of_true (inBounds_fName (isUser rfl) enough) id
  | fMode => exact iff_of_true (inBounds_fMode enough) id
  | fTopic => exact iff_of_true (inBounds_fTopic enough) id
  | idle => exact iff_of_true (inBounds_idle enough) id
  | iJoin => exact iff_of_true (inBounds_iJoin (isUser rfl) enough) id
  | kick => exact iff_of_true (inBounds_kick enough) id
  | lMode => exact iff_of_true (inBounds_lMode enough) id
  | nick => exact iff_of_true (inBounds_nick (isUser rfl) (Nat.le_of_succ_le enough)) id
  | operType => exact iff_of_true (inBounds_operType (isUser rfl) enough) id
  | rSQuit => exact iff_of_true (inBounds_rSQuit enough) id
  | sasl => exact iff_of_true (inBounds_sasl enough) id
  | save => exact iff_of_true (inBounds_save enough) id
  | server => exact iff_of_true (inBounds_server enough) id
  | sQuit => exact iff_of_true (inBounds_sQuit (Nat.le_of_succ_le enough)) id
  | tagmsg => exact iff_of_true (inBounds_pure _) id

theorem inBounds_caught_iff {result : Result (List (Call υ σ χ κ))} :
    InBounds (caught result) ↔ InBounds result := by
  cases result with
  | ok calls => exact iff_of_true (inBounds_ok _) (inBounds_ok _)
  | error fault =>
      cases fault with
      | thrown reason => exact iff_of_true (inBounds_ok _) (inBounds_thrown _)
      | outOfBounds => exact Iff.rfl

theorem opened_of_ne_encap {command : Str} (notEncap : findMessage env command ≠ some .encap) :
    opened env command params = (command, params) := by
  match params with
  | [] => rfl
  | [_] => rfl
  | mask :: inner :: params => rw [opened, if_neg fun both => notEncap both.1]

theorem accepts_encap_iff : Message.encap.accepts source params = true ↔ 2 ≤ params.length := by
  simp [Message.accepts, Message.declared]

/-- An `ENCAP` is read within its parameters when the message in it is, or is not for us. -/
theorem inBounds_encap_iff {mask inner : Str} {processInternal : Str → List Str →
    Result (List (Call υ σ χ κ))} : InBounds (encap env (mask :: inner :: params) processInternal) ↔
      (globMatch env.casemap (env.sid env.me) mask = true ∨
        globMatch env.casemap (env.serverName env.me) mask = true →
        InBounds (processInternal inner params)) := by
  have range_eq : range (mask :: inner :: params) 2 0 = .ok params := by
    simp [range]
  rw [encap, inBounds_bind_of_ok (param_eq_ok rfl), range_eq]
  cases globMatch env.casemap (env.sid env.me) mask with
  | true => exact ⟨fun reads _ => reads, fun reads => reads (.inl rfl)⟩
  | false =>
      cases globMatch env.casemap (env.serverName env.me) mask with
      | true => exact ⟨fun reads _ => reads, fun reads => reads (.inr rfl)⟩
      | false => exact iff_of_true (inBounds_pure _) fun addressed => by simp at addressed

/-- The message inside is reached before the depth is. -/
theorem inBounds_processInternal_iff (depth : Nat) (command : Str) (params : List Str)
    (deep : params.length < depth) :
    InBounds (processInternal env source tags depth command params) ↔
      ¬ExceedsAt env source (opened env command params) := by
  induction depth generalizing command params with
  | zero => exact absurd deep (Nat.not_lt_zero _)
  | succ depth ih =>
      rw [processInternal]
      cases found : findMessage env command with
      | none =>
          rw [opened_of_ne_encap (by rw [found]; simp)]
          refine iff_of_true (inBounds_ok _) ?_
          rintro ⟨m, isMessage, _⟩
          cases found.symm.trans isMessage
      | some m =>
          dsimp only
          have exceeds_iff : ExceedsAt env source (command, params) ↔
              m.accepts source params = true ∧ m.Exceeds env source params := by
            constructor
            · rintro ⟨other, isMessage, exceeds⟩
              cases found.symm.trans isMessage
              exact exceeds
            · exact fun exceeds => ⟨m, found, exceeds⟩
          by_cases isEncap : m = .encap
          · subst isEncap
            by_cases accepted : Message.encap.accepts source params = true
            · rw [if_pos accepted, inBounds_caught_iff]
              match params, accepts_encap_iff.mp accepted with
              | mask :: inner :: params, _ =>
                  simp only [List.length_cons] at deep
                  rw [opened, Message.run, inBounds_encap_iff, ih inner params (by omega)]
                  split
                  · rename_i both
                    exact ⟨fun reads => reads both.2, fun reads _ => reads⟩
                  · rename_i notBoth
                    refine iff_of_true (fun addressed => absurd ⟨found, addressed⟩ notBoth) ?_
                    exact fun exceeds => (exceeds_iff.mp exceeds).2
            · rw [if_neg accepted]
              have unopened : opened env command params = (command, params) := by
                match params, mt accepts_encap_iff.mpr accepted with
                | [], _ => rfl
                | [_], _ => rfl
                | _ :: _ :: _, short => exact absurd (by simp) short
              rw [unopened]
              exact iff_of_true (inBounds_ok _) fun exceeds => accepted (exceeds_iff.mp exceeds).1
          · rw [opened_of_ne_encap (by rw [found]; exact fun same => isEncap (Option.some.inj same)),
              exceeds_iff]
            by_cases accepted : m.accepts source params = true
            · rw [if_pos accepted, inBounds_caught_iff, Message.inBounds_run_iff accepted _ isEncap]
              exact not_congr ⟨fun exceeds => ⟨accepted, exceeds⟩, And.right⟩
            · rw [if_neg accepted]
              exact iff_of_true (inBounds_ok _) fun both => accepted both.1

/-- A line is read within its parameters exactly when the message that it carries does not exceed
what its handler is prepared for. -/
theorem inBounds_process_iff (env : Env υ σ χ κ) (tags : Str → Option Str) (text command : Str)
    (params : List Str) :
    InBounds (process env tags text command params) ↔ ¬Exceeds env text command params :=
  inBounds_processInternal_iff _ command params (Nat.lt_succ_self _)

/-- Services before the uplink is introduced. -/
def alone : Env Unit Unit Unit Unit where
  casemap := Casemap.ascii
  curTime := 0
  me := ()
  uplink := none
  findServer _ := none
  serverName _ := ascii "services.example.com"
  sid _ := ascii "00B"
  isSynced _ := false
  isJuped _ := false
  isMe _ := true
  links := []
  findUser _ := none
  isMine _ := false
  isBot _ := false
  findBot _ := none
  nick _ := []
  uid _ := []
  timestamp _ := 0
  hasMode _ _ := false
  findChannel _ := none
  created _ := 0
  maxChannel := 32
  findChannelModeByChar _ := none
  hasCapab _ := false
  hasUserMode _ := false
  saslService := false
  saslUsers := []
  findAccount _ := none
  introduces _ _ := true
  rsquitId := []
  rsquitServer := []
  lastCollide := 0

/-- `CAPAB EXTBANS` comes without the list. -/
theorem not_inBounds_process_extBans :
    ¬ ∀ text command params, InBounds (process alone (fun _ => none) text command params) := by
  intro inBounds
  exact inBounds [] (ascii "CAPAB") [ascii "EXTBANS"] rfl

end Anope.Inspircd
