import MapQuery.Proofs.Schedule.Admission
import MapQuery.Proofs.Schedule.Ending
import MapQuery.Proofs.Schedule.Phases
import MapQuery.Proofs.Schedule.Windows

/-!
# Debouncing

The log of a run lists its changes and the ends of the debounce window. It is read off what the
agent takes up, and tells what has become of the window: every burst of changes is followed by one
end of the window, with one request at most, and no change is forgotten while a request is in
flight.
-/

set_option autoImplicit false

namespace MapQuery

open Deed

namespace Refresher

/-- Whether a request in flight holds up what the window is for. -/
def isHeld (r : Refresher) (c : Content) : Bool :=
  r.status.inFlight && !r.failsClosed (r.resolution c)

/-- Whether a command is a change. -/
def isChangedBy (r : Refresher) : Command → Bool
  | .refresh | .setWindow _ => true
  | .setVisible visible => r.status.visible != visible
  | .stop => false

variable {now : Nat} {c : Content} {r : Refresher} {result : Refresher × List Effect}

theorem deadline_expiry (h : Expiry now c r result) :
    result.1.deadline = (Beat.expired (r.isHeld c)).due r.pace.debounce now := by
  cases h with
  | rearmed hflight hopen =>
    have hheld : r.isHeld c = true := by simp [isHeld, hflight, hopen]
    rw [hheld]
    rfl
  | postponed _ hidle =>
    have hheld : r.isHeld c = false := by
      cases hflight : r.status.inFlight with
      | false => simp [isHeld, hflight]
      | true => simp [isHeld, hidle hflight]
    rw [hheld]
    rfl
  | closed _ hclosed =>
    have hheld : r.isHeld c = false := by simp [isHeld, hclosed]
    rw [hheld]
    exact deadline_abort r.disarmed
  | issued _ _ hflight =>
    have hheld : r.isHeld c = false := by simp [isHeld, hflight]
    rw [hheld]
    exact deadline_abort r.disarmed

theorem issued_abort (r : Refresher) : issued (r.abort.2.map .did) = [] := by
  unfold abort
  split <;> rfl

theorem issued_replyEffects (generation : Nat) (reply : Reply) :
    issued ((replyEffects generation reply).map .did) = [] := by
  cases reply <;> rfl

/-- A request is issued by a window that is not held, and only one. -/
theorem length_issued_expiry (h : Expiry now c r result) :
    (issued (result.2.map .did)).length ≤ [Beat.expired (r.isHeld c)].count (.expired false) := by
  cases h with
  | rearmed | postponed => exact Nat.zero_le _
  | closed =>
    have hnone := issued_abort r.disarmed
    simp [close, hnone, issued?]
  | issued _ _ hflight =>
    have hnone := issued_abort r.disarmed
    have hheld : r.isHeld c = false := by simp [isHeld, hflight]
    simp [issue, hnone, hheld, issued?]

theorem isHeld_of_expire_eq_none (h : r.expire now c = none) : r.isHeld c = false := by
  simp [isHeld, inFlight_of_expire_eq_none h]

end Refresher

namespace Agent

@[simp] theorem condition_announce (change : Change) (a : Agent) :
    (a.announce change).condition = a.condition := by
  unfold announce
  split
  · rfl
  · split <;> rfl

@[simp] theorem condition_respond (response : Response) (a : Agent) :
    (a.respond response).condition = a.condition := by
  unfold respond
  split <;> rfl

end Agent

/-- The command that a move leaves for the agent. -/
def Move.told? : Move → Option Command
  | .tell command => some command
  | _ => none

namespace Scene

@[simp] theorem condition_edited (s : Scene) (e : Edit) :
    (s.edited e).agent.condition = s.agent.condition := by
  simp only [edited]
  split <;> simp

/-- What a move, if it is possible, is for the debounce window. -/
def beat? (s : Scene) : Move → Option Beat
  | .obey =>
    if s.agent.commands.head?.any s.agent.refresher.isChangedBy then some .changed else none
  | .recover => some .changed
  | .hear =>
    if s.agent.unread.head?.any (s.content.concerns s.agent.refresher.source.layer.id) then
      some .changed
    else none
  | .expire => some (.expired (s.agent.refresher.isHeld s.content))
  | .pass _ | .edit _ | .tell _ | .respond _ | .receive => none

/-- The log of the window over moves one after another, as long as they are possible. -/
def beats (s : Scene) : List Move → BeatLog
  | [] => []
  | m :: rest =>
    match s.step? m with
    | none => []
    | some (t, _) => (s.beat? m).toList.map (s.now, ·) ++ t.beats rest

variable {s t : Scene} {m : Move} {moves : List Move} {effects : List Effect} {later : List Deed}

theorem beats_cons (h : s.step? m = some (t, effects)) :
    s.beats (m :: moves) = (s.beat? m).toList.map (s.now, ·) ++ t.beats moves := by
  simp [beats, h]

/-! ## What one move does -/

/-- All that a move can do to the debounce window, with the requests that it issues. -/
inductive Ticks (s t : Scene) : Option Beat → List Nat → Prop
  | rested (hcondition : t.agent.condition = s.agent.condition)
      (hdeadline : t.agent.refresher.deadline = s.agent.refresher.deadline) : Ticks s t none []
  | stopped (hcondition : t.agent.condition = .stopped) : Ticks s t none []
  | changed (running : s.agent.isRunning = true) (hcondition : t.agent.isRunning = true)
      (hdeadline : t.agent.refresher.deadline =
        Beat.changed.due s.agent.refresher.pace.debounce s.now) : Ticks s t (some .changed) []
  | expired (isHeld : Bool) (issued : List Nat) (running : s.agent.isRunning = true)
      (hdue : s.agent.refresher.deadline.any (· ≤ s.now) = true)
      (hcondition : t.agent.isRunning = true)
      (hdeadline : t.agent.refresher.deadline =
        (Beat.expired isHeld).due s.agent.refresher.pace.debounce s.now)
      (hissued : issued.length ≤ [Beat.expired isHeld].count (.expired false)) :
      Ticks s t (some (.expired isHeld)) issued
  /-- The time window that was asked for leaves the calendar. -/
  | crashed (running : s.agent.isRunning = true)
      (hdue : s.agent.refresher.deadline.any (· ≤ s.now) = true)
      (hcondition : t.agent.condition = .crashed) : Ticks s t (some (.expired false)) []

theorem ticks_obey {command : Command} {rest : List Command} (running : s.agent.isRunning = true)
    (hcommands : s.agent.commands = command :: rest) :
    let r := Agent.obey s.now { s.agent with commands := rest } command
    s.Ticks { s with agent := r.1 } (s.beat? .obey) (issued (.obeyed command :: r.2.map .did)) := by
  intro r
  have hbeat : s.beat? .obey =
      if s.agent.refresher.isChangedBy command then some .changed else none := by
    simp [beat?, hcommands]
  rw [hbeat]
  cases command with
  | refresh | setWindow => exact .changed running running rfl
  | stop =>
    have hnone : issued (.obeyed .stop :: r.2.map .did) = [] :=
      s.agent.refresher.issued_abort
    rw [hnone]
    exact .stopped rfl
  | setVisible visible =>
    by_cases hsame : s.agent.refresher.status.visible = visible
    · have hchanged : s.agent.refresher.isChangedBy (.setVisible visible) = false := by
        simp [Refresher.isChangedBy, hsame]
      rw [hchanged]
      refine .rested rfl ?_
      show (s.agent.refresher.setVisible s.now visible).deadline = _
      rw [Refresher.setVisible, if_pos hsame]
    · have hchanged : s.agent.refresher.isChangedBy (.setVisible visible) = true := by
        simp [Refresher.isChangedBy, hsame]
      rw [hchanged]
      refine .changed running running ?_
      show (s.agent.refresher.setVisible s.now visible).deadline = _
      rw [Refresher.setVisible, if_neg hsame]
      rfl

theorem ticks_hear {change : Change} {rest : List Change} (running : s.agent.isRunning = true)
    (hunread : s.agent.unread = change :: rest) :
    s.Ticks { s with agent := Agent.hear s.now s.content change { s.agent with unread := rest } }
      (s.beat? .hear) [] := by
  have hbeat : s.beat? .hear =
      if s.content.concerns s.agent.refresher.source.layer.id change then some .changed
      else none := by
    simp [beat?, hunread]
  rw [hbeat]
  by_cases hconcerns : s.content.concerns s.agent.refresher.source.layer.id change = true
  · rw [if_pos hconcerns]
    refine .changed running running ?_
    show (s.agent.refresher.hear s.now s.content change).deadline = _
    rw [Refresher.hear, if_pos hconcerns]
    rfl
  · rw [if_neg hconcerns]
    refine .rested rfl ?_
    show (s.agent.refresher.hear s.now s.content change).deadline = _
    rw [Refresher.hear, if_neg hconcerns]

theorem ticks_receive {response : Response} {rest : List Response} :
    let r := Agent.receive response { s.agent with responses := rest }
    s.Ticks { s with agent := r.1 } none (issued (.took response :: r.2.map .did)) := by
  intro r
  obtain ⟨generation, reply⟩ := response
  rcases s.agent.refresher.complete_cases generation reply with ⟨-, -, hcomplete⟩ | ⟨-, hcomplete⟩
  · have hr : r = ({ s.agent with responses := rest, refresher := s.agent.refresher.completed },
        Refresher.replyEffects generation reply) := by
      simp only [r, Agent.receive, hcomplete]
    have hnone : issued (.took ⟨generation, reply⟩ :: r.2.map .did) = [] := by
      rw [hr]
      exact Refresher.issued_replyEffects generation reply
    rw [hnone, hr]
    exact .rested rfl rfl
  · have hr : r = ({ s.agent with responses := rest }, []) := by
      simp only [r, Agent.receive, hcomplete]
    rw [hr]
    exact .rested rfl rfl

theorem ticks_expire (running : s.agent.isRunning = true)
    (hdue : s.agent.refresher.deadline.any (· ≤ s.now) = true) :
    let r := s.agent.expire s.now s.content
    s.Ticks { s with agent := r.1 } (s.beat? .expire) (issued (r.2.map .did)) := by
  intro r
  have hbeat : s.beat? .expire = some (.expired (s.agent.refresher.isHeld s.content)) := rfl
  cases hexpire : s.agent.refresher.expire s.now s.content with
  | none =>
    have hr : r = (s.agent.finish .crashed, []) := by simp only [r, Agent.expire, hexpire]
    rw [hr, hbeat, Refresher.isHeld_of_expire_eq_none hexpire]
    exact .crashed running hdue rfl
  | some result =>
    have hr : r = ({ s.agent with refresher := result.1 }, result.2) := by
      simp only [r, Agent.expire, hexpire]
    have hexpiry := Refresher.expiry_of_expire hexpire
    rw [hr, hbeat]
    exact .expired _ _ running hdue running (Refresher.deadline_expiry hexpiry)
      (Refresher.length_issued_expiry hexpiry)

theorem ticks_of_step? (h : s.step? m = some (t, effects)) :
    s.Ticks t (s.beat? m) (issued (s.deeds m effects)) := by
  have hleaves := leaves_of_step? h
  generalize s.deeds m effects = deeds at hleaves ⊢
  cases hleaves with
  | passed | told => exact .rested rfl rfl
  | edited e => exact .rested (condition_edited s e) (by rw [refresher_edited])
  | responded response =>
    refine .rested (Agent.condition_respond response s.agent) ?_
    show (s.agent.respond response).refresher.deadline = _
    rw [Agent.refresher_respond]
  | obeyed _ _ running hcommands => exact ticks_obey running hcommands
  | received => exact ticks_receive
  | recovered running => exact .changed running running rfl
  | heard _ _ running hunread => exact ticks_hear running hunread
  | expired running hdue => exact ticks_expire running hdue

theorem pace_step? (h : s.step? m = some (t, effects)) :
    t.agent.refresher.pace = s.agent.refresher.pace := by
  rcases changes_of_step? h with hdoes | ⟨-, hrefresher, -⟩
  · exact (Refresher.source_does hdoes).2
  · rw [hrefresher]
    exact (Refresher.settings_abort s.agent.refresher).2.1

theorem now_step? (h : s.step? m = some (t, effects)) : s.now ≤ t.now := by
  cases leads_of_step? h with
  | passed milliseconds => exact Nat.le_add_right s.now milliseconds
  | edited | told | responded | acted => exact Nat.le_refl s.now

/-! ## What a run does -/

/-- The log of an agent that has ended is empty. -/
theorem beats_of_ended (hended : s.agent.isRunning = false) : s.beats moves = [] := by
  induction moves generalizing s with
  | nil => rfl
  | cons m rest ih =>
    cases h : s.step? m with
    | none => simp [beats, h]
    | some r =>
      obtain ⟨t, effects⟩ := r
      rw [beats_cons h, ih (ended_step? hended h).1]
      have hticks := ticks_of_step? h
      generalize s.beat? m = b, issued (s.deeds m effects) = requests at hticks ⊢
      cases hticks with
      | rested | stopped => rfl
      | changed running | expired _ _ running | crashed running =>
        rw [running] at hended
        cases hended

theorem now_le_of_mem_beats {e : Nat × Beat} (he : e ∈ s.beats moves) : s.now ≤ e.1 := by
  induction moves generalizing s with
  | nil => cases he
  | cons m rest ih =>
    cases h : s.step? m with
    | none => simp [beats, h] at he
    | some r =>
      obtain ⟨t, effects⟩ := r
      rw [beats_cons h] at he
      rcases List.mem_append.1 he with he | he
      · obtain ⟨b, -, rfl⟩ := List.mem_map.1 he
        exact Nat.le_refl s.now
      · exact (now_step? h).trans (ih he)

theorem isRunning_of_condition (h : s.agent.condition = .crashed ∨ s.agent.condition = .stopped) :
    s.agent.isRunning = false := by
  rcases h with h | h <;> simp [Agent.isRunning, h]

theorem condition_ne_stopped (running : s.agent.isRunning = true) :
    s.agent.condition ≠ .stopped := by
  intro hstopped
  rw [isRunning_of_condition (.inr hstopped)] at running
  cases running

/-- In the log of a run the window runs out only when it is due. -/
theorem isTimed_beats (s : Scene) (moves : List Move) :
    BeatLog.IsTimed s.agent.refresher.pace.debounce s.agent.refresher.deadline
      (s.beats moves) := by
  induction moves generalizing s with
  | nil => exact .nil _
  | cons m rest ih =>
    cases h : s.step? m with
    | none =>
      simp only [beats, h]
      exact .nil _
    | some r =>
      obtain ⟨t, effects⟩ := r
      have hrest := ih t
      rw [pace_step? h] at hrest
      have hlater : ∀ e ∈ t.beats rest, s.now ≤ e.1 := fun e he =>
        (now_step? h).trans (now_le_of_mem_beats he)
      have hticks := ticks_of_step? h
      rw [beats_cons h]
      generalize s.beat? m = b, issued (s.deeds m effects) = requests at hticks ⊢
      cases hticks with
      | rested _ hdeadline =>
        rw [hdeadline] at hrest
        exact hrest
      | stopped hcondition =>
        rw [beats_of_ended (isRunning_of_condition (.inr hcondition))]
        exact .nil _
      | changed _ _ hdeadline =>
        rw [hdeadline] at hrest
        exact .cons (fun hexpiry => by cases hexpiry) hlater hrest
      | expired _ _ _ hdue _ hdeadline =>
        rw [hdeadline] at hrest
        exact .cons (fun _ => hdue) hlater hrest
      | crashed _ hdue hcondition =>
        rw [beats_of_ended (isRunning_of_condition (.inl hcondition))]
        exact .cons (fun _ => hdue) (fun e he => nomatch he) (.nil _)

theorem stopped_trace? (hstopped : s.agent.condition = .stopped)
    (h : s.trace? moves = some (t, later)) : t.agent.condition = .stopped := by
  apply trace?_induction (P := fun s _ => s.agent.condition = .stopped) _ [] hstopped h
  intro s t m _ effects hstopped hstep
  have hended := isRunning_of_condition (.inr hstopped)
  have hticks := ticks_of_step? hstep
  generalize s.beat? m = b, issued (s.deeds m effects) = requests at hticks
  cases hticks with
  | rested hcondition => exact hcondition.trans hstopped
  | stopped hcondition => exact hcondition
  | changed running | expired _ _ running | crashed running =>
    rw [running] at hended
    cases hended

/-- The log of an agent that is not stopped tells when its window runs out. -/
theorem deadline_trace? {debounce : Nat} (hpace : s.agent.refresher.pace.debounce = debounce)
    (running : s.agent.isRunning = true) (h : s.trace? moves = some (t, later))
    (hstopped : t.agent.condition ≠ .stopped) :
    t.agent.isRunning = true ∧ t.agent.refresher.deadline =
        BeatLog.dueAfter debounce s.agent.refresher.deadline (s.beats moves) ∨
      t.agent.isRunning = false ∧
        BeatLog.dueAfter debounce s.agent.refresher.deadline (s.beats moves) = none := by
  induction moves generalizing s later with
  | nil =>
    obtain ⟨rfl, -⟩ : s = t ∧ [] = later := by simpa [trace?] using h
    exact .inl ⟨running, rfl⟩
  | cons m rest ih =>
    obtain ⟨u, effects, more, hstep, hrest, rfl⟩ := trace?_cons.1 h
    have hnext := fun running => ih ((congrArg Pace.debounce (pace_step? hstep)).trans hpace)
      running hrest
    have hticks := ticks_of_step? hstep
    rw [beats_cons hstep, BeatLog.dueAfter_append]
    generalize s.beat? m = b, issued (s.deeds m effects) = requests at hticks ⊢
    cases hticks with
    | rested hcondition hdeadline =>
      rw [hdeadline] at hnext
      refine hnext ?_
      rwa [Agent.isRunning, hcondition]
    | stopped hcondition => exact absurd (stopped_trace? hcondition hrest) hstopped
    | changed _ hrunning hdeadline | expired _ _ _ _ hrunning hdeadline =>
      rw [hdeadline, hpace] at hnext
      exact hnext hrunning
    | crashed _ _ hcondition =>
      have hended := isRunning_of_condition (.inl hcondition)
      rw [beats_of_ended hended]
      exact .inr ⟨(ended_trace? hended hrest).1, rfl⟩

/-- Each request is issued by a window that runs out without being held. -/
theorem length_issued_trace? (h : s.trace? moves = some (t, later)) :
    (issued later).length ≤ ((s.beats moves).map Prod.snd).count (.expired false) := by
  induction moves generalizing s later with
  | nil =>
    obtain ⟨-, rfl⟩ : s = t ∧ [] = later := by simpa [trace?] using h
    exact Nat.zero_le _
  | cons m rest ih =>
    obtain ⟨u, effects, more, hstep, hrest, rfl⟩ := trace?_cons.1 h
    have hnext := ih hrest
    have hticks := ticks_of_step? hstep
    rw [issued_append, List.length_append, beats_cons hstep, List.map_append, List.count_append]
    refine Nat.add_le_add ?_ hnext
    generalize s.beat? m = b, issued (s.deeds m effects) = requests at hticks ⊢
    cases hticks with
    | rested | stopped | changed | crashed => exact Nat.zero_le _
    | expired _ _ _ _ _ _ hissued => exact hissued

theorem commands_obey {now : Nat} {a : Agent} {command : Command}
    (running : (Agent.obey now a command).1.isRunning = true) :
    (Agent.obey now a command).1.commands = a.commands := by
  cases command with
  | refresh | setVisible | setWindow => rfl
  | stop => cases running

theorem commands_expire {now : Nat} {c : Content} {a : Agent}
    (running : (a.expire now c).1.isRunning = true) :
    (a.expire now c).1.commands = a.commands := by
  unfold Agent.expire at running ⊢
  split
  · rfl
  · next hexpire =>
    rw [hexpire] at running
    cases running

theorem commands_step? (h : s.step? m = some (t, effects)) (running : t.agent.isRunning = true) :
    s.agent.commands ++ m.told?.toList =
      (s.deeds m effects).filterMap obeyed? ++ t.agent.commands := by
  have hleaves := leaves_of_step? h
  generalize s.deeds m effects = deeds at hleaves ⊢
  cases hleaves with
  | told => rfl
  | passed | recovered | heard => exact List.append_nil _
  | edited e =>
    rw [commands_edited]
    exact List.append_nil _
  | responded response =>
    exact (List.append_nil _).trans (Agent.commands_respond response s.agent).symm
  | obeyed _ _ _ hcommands =>
    have hrest := commands_obey running
    rw [hcommands, List.filterMap_cons_some (f := obeyed?) rfl, filterMap_obeyed?_did, hrest]
    exact List.append_nil _
  | received =>
    rw [List.filterMap_cons_none rfl, filterMap_obeyed?_did]
    exact List.append_nil _
  | expired =>
    rw [filterMap_obeyed?_did, commands_expire running]
    exact List.append_nil _

/-- Commands are obeyed in the order in which they were left, or still wait. -/
theorem commands_trace? (h : s.trace? moves = some (t, later))
    (running : t.agent.isRunning = true) :
    s.agent.commands ++ moves.filterMap Move.told? =
      later.filterMap obeyed? ++ t.agent.commands := by
  induction moves generalizing s later with
  | nil =>
    obtain ⟨rfl, rfl⟩ : s = t ∧ [] = later := by simpa [trace?] using h
    exact List.append_nil _
  | cons m rest ih =>
    obtain ⟨u, effects, more, hstep, hrest, rfl⟩ := trace?_cons.1 h
    have htold : (m :: rest).filterMap Move.told? =
        m.told?.toList ++ rest.filterMap Move.told? := by
      cases hm : m.told? <;> simp [hm]
    rw [htold, ← List.append_assoc, commands_step? hstep (isRunning_of_trace? hrest running),
      List.append_assoc, ih hrest, List.filterMap_append, List.append_assoc]

/-- The log of a running agent tells when its window runs out. -/
theorem deadline_eq_dueAfter (h : s.trace? moves = some (t, later))
    (running : t.agent.isRunning = true) :
    t.agent.refresher.deadline = BeatLog.dueAfter s.agent.refresher.pace.debounce
      s.agent.refresher.deadline (s.beats moves) := by
  rcases deadline_trace? rfl (isRunning_of_trace? h running) h (condition_ne_stopped running) with
    ⟨-, hdeadline⟩ | ⟨hended, -⟩
  · exact hdeadline
  · rw [running] at hended
    cases hended

/-- A burst of changes has one end, after all of them, with one request at most. -/
theorem exists_expiry_of_burst (h : s.trace? moves = some (t, later))
    (hburst : BeatLog.IsBurst s.agent.refresher.pace.debounce t.now (s.beats moves))
    (hheld : ∀ e ∈ s.beats moves, e.2 ≠ .expired true) (hstopped : t.agent.condition ≠ .stopped)
    (hdone : t.agent.isRunning = true → t.agent.refresher.deadline.any (· ≤ t.now) = false) :
    ∃ time, BeatLog.expiries (s.beats moves) = [(time, .expired false)] ∧
      (∀ change ∈ BeatLog.changes (s.beats moves),
        change + s.agent.refresher.pace.debounce ≤ time) ∧
      (issued later).length ≤ 1 := by
  have running : s.agent.isRunning = true := by
    cases hended : s.agent.isRunning with
    | true => rfl
    | false =>
      obtain ⟨first, hfirst⟩ := hburst.first
      rw [beats_of_ended hended] at hfirst
      cases hfirst
  have hnone : (BeatLog.dueAfter s.agent.refresher.pace.debounce s.agent.refresher.deadline
      (s.beats moves)).any (· ≤ t.now) = false := by
    rcases deadline_trace? rfl running h hstopped with ⟨trunning, hdue⟩ | ⟨-, hdue⟩
    · exact (congrArg _ hdue.symm).trans (hdone trunning)
    · exact congrArg _ hdue
  obtain ⟨time, hexpiries, htime⟩ :=
    (isTimed_beats s moves).expiries_of_burst hburst hheld hnone
  have hcount := BeatLog.count_expired_le (s.beats moves) false
  rw [hexpiries] at hcount
  exact ⟨time, hexpiries, htime, (length_issued_trace? h).trans hcount⟩

/-- What debouncing does in any run. A window runs out a debounce or more after the event before,
and leaves none behind unless it is held by a request in flight. A burst of changes has one end,
after all of them, with one request at most. After a change the window stays armed until it runs out
without being held, and commands that the agent has not come to still wait. -/
theorem bursts_coalesce (h : s.trace? moves = some (t, later)) :
    let debounce := s.agent.refresher.pace.debounce
    let log := s.beats moves
    (log.Pairwise fun e f => f.2.isExpiry = true → e.1 + debounce ≤ f.1) ∧
    (t.agent.isRunning = true → t.agent.refresher.deadline =
      BeatLog.dueAfter debounce s.agent.refresher.deadline log) ∧
    (BeatLog.IsBurst debounce t.now log → (∀ e ∈ log, e.2 ≠ .expired true) →
      t.agent.condition ≠ .stopped →
      (t.agent.isRunning = true → t.agent.refresher.deadline.any (· ≤ t.now) = false) →
      ∃ time, BeatLog.expiries log = [(time, .expired false)] ∧
        (∀ change ∈ BeatLog.changes log, change + debounce ≤ time) ∧
        (issued later).length ≤ 1) ∧
    (∀ before time after, log = before ++ (time, .changed) :: after →
      t.agent.isRunning = true → (∀ e ∈ after, e.2 ≠ .expired false) →
      ∃ e ∈ (time, .changed) :: after,
        t.agent.refresher.deadline = some (e.1 + debounce)) ∧
    (t.agent.isRunning = true → s.agent.commands ++ moves.filterMap Move.told? =
      later.filterMap obeyed? ++ t.agent.commands) := by
  intro debounce log
  refine ⟨(isTimed_beats s moves).pairwise, deadline_eq_dueAfter h, exists_expiry_of_burst h, ?_,
    commands_trace? h⟩
  intro before time after hlog running hafter
  rw [deadline_eq_dueAfter h running, show s.beats moves = _ from hlog]
  exact BeatLog.dueAfter_of_changed before time hafter

/-- Four changes, each less than a debounce after the one before: a refresh is asked for, the area
of the layer is put anew, and the layer is hidden and shown. A refresh asked for while the request
is in flight finds the window armed again. -/
theorem bursts_coalesce_of_four_changes :
    let burst := [.tell .refresh, .obey, .pass 200, .edit (.putArea ⟨"A", .polygon [], true⟩),
      .hear, .pass 249, .tell (.setVisible false), .obey, .pass 10, .tell (.setVisible true), .obey,
      .pass 250, .expire]
    let loading := [.tell .refresh, .obey, .pass 250, .expire]
    ∃ t later, fenced.trace? burst = some (t, later) ∧
      fenced.beats burst =
        [(0, .changed), (200, .changed), (449, .changed), (459, .changed), (709, .expired false)] ∧
      (issued later).length ≤ 1 ∧
      ∃ u past, fenced.trace? (burst ++ loading) = some (u, past) ∧
        ∃ e ∈ [(709, Beat.changed), (959, .expired true)],
          u.agent.refresher.deadline = some (e.1 + 250) := by
  intro burst loading
  have hburst : (fenced.trace? burst).any (fun r => r.1.agent.isRunning && r.1.now == 709 &&
      r.1.agent.refresher.deadline.isNone) = true := by
    simp only [burst]
    decide +kernel
  have hlog : fenced.beats burst = [(0, .changed), (200, .changed), (449, .changed),
      (459, .changed), (709, .expired false)] := by
    simp only [burst]
    decide +kernel
  have hloading : (fenced.trace? (burst ++ loading)).any (fun r => r.1.agent.isRunning) = true := by
    simp only [burst, loading]
    decide +kernel
  have hlonger : fenced.beats (burst ++ loading) =
      fenced.beats burst ++ [(709, .changed), (959, .expired true)] := by
    simp only [burst, loading]
    decide +kernel
  simp only [Option.any_eq_true, Prod.exists, Bool.and_eq_true, beq_iff_eq,
    Option.isNone_iff_eq_none] at hburst hloading
  obtain ⟨t, later, h, ⟨running, hnow⟩, hdeadline⟩ := hburst
  obtain ⟨u, past, hu, urunning⟩ := hloading
  obtain ⟨-, -, hone, -⟩ := bursts_coalesce h
  rw [hlog, hnow] at hone
  obtain ⟨-, -, -, hissued⟩ := hone ⟨⟨0, rfl⟩, by decide, by decide⟩ (by decide)
    (condition_ne_stopped running) (by simp [hdeadline])
  obtain ⟨-, -, -, harmed, -⟩ := bursts_coalesce hu
  exact ⟨t, later, h, hlog, hissued, u, past, hu,
    harmed _ _ _ hlonger urunning (by decide)⟩

end Scene
end MapQuery
