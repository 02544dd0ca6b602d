import MapQuery.Proofs.Schedule.Refresh
import MapQuery.Proofs.Schedule.Scene

/-!
# The time window that was asked for

What a command asks for waits until the agent obeys it. The window that it has once every command is
obeyed is the one that was asked for last.
-/

set_option autoImplicit false

namespace MapQuery

/-- The time window after a command, given the one before. -/
def Command.windowAfter (window : Option TimeWindow) : Command → Option TimeWindow
  | .setWindow window' => window'
  | .refresh | .setVisible _ | .stop => window

/-- The time window asked for after a move, given the one asked for before. -/
def Move.windowAfter (window : Option TimeWindow) : Move → Option TimeWindow
  | .tell command => command.windowAfter window
  | _ => window

/-- The time window that was asked for last. -/
def toldWindow (moves : List Move) : Option TimeWindow := moves.foldl Move.windowAfter none

namespace Agent

/-- The time window once every command has been obeyed. -/
def pendingWindow (a : Agent) : Option TimeWindow :=
  a.commands.foldl Command.windowAfter a.refresher.window

theorem window_expire {now : Nat} {c : Content} {r : Refresher} {result : Refresher × List Effect}
    (h : r.expire now c = some result) : result.1.window = r.window := by
  cases Refresher.expiry_of_expire h with
  | rearmed | postponed => rfl
  | closed =>
    simp only [Refresher.close, Refresher.abort]
    split <;> rfl
  | issued =>
    simp only [Refresher.issue, Refresher.abort]
    split <;> rfl

theorem pendingWindow_acts {now : Nat} {c : Content} {a : Agent} {r : Agent × List Effect}
    (h : Scene.Acts now c a r) (running : r.1.isRunning = true) :
    r.1.pendingWindow = a.pendingWindow := by
  cases h with
  | obeyed command rest hcommands =>
    unfold pendingWindow
    rw [hcommands]
    cases command with
    | refresh | setWindow => rfl
    | setVisible visible =>
      show rest.foldl _ (Refresher.setVisible now visible a.refresher).window = _
      unfold Refresher.setVisible
      split <;> rfl
    | stop => exact absurd running (by simp [Agent.obey, Agent.stop, finish, isRunning])
  | received response =>
    show a.commands.foldl _ (Refresher.complete _ _ a.refresher).1.window = _
    rcases a.refresher.complete_cases response.generation response.reply with
      ⟨-, -, hcomplete⟩ | ⟨-, hcomplete⟩ <;> rw [hcomplete] <;> rfl
  | recovered => rfl
  | heard change =>
    show a.commands.foldl _ (Refresher.hear now c change a.refresher).window = _
    unfold Refresher.hear
    split <;> rfl
  | expired =>
    unfold Agent.expire at running ⊢
    cases hexpire : a.refresher.expire now c with
    | none =>
      rw [hexpire] at running
      exact absurd running (by simp [finish, isRunning])
    | some result =>
      show a.commands.foldl _ result.1.window = _
      rw [window_expire hexpire]
      rfl

end Agent

namespace Scene

theorem isRunning_of_step {s : Scene} {m : Move} {r : Scene × List Effect}
    (hstep : s.step? m = some r) (running : r.1.agent.isRunning = true) :
    s.agent.isRunning = true := by
  cases leads_of_step? hstep with
  | passed => exact running
  | told _ hrunning | acted hrunning => exact hrunning
  | edited e => rwa [isRunning_edited] at running
  | responded response => exact (Agent.isRunning_respond response s.agent).symm.trans running

theorem pendingWindow_step {s : Scene} {m : Move} {r : Scene × List Effect}
    (hstep : s.step? m = some r) (running : r.1.agent.isRunning = true) :
    r.1.agent.pendingWindow = m.windowAfter s.agent.pendingWindow := by
  cases leads_of_step? hstep with
  | passed => rfl
  | edited e =>
    show (s.edited e).agent.pendingWindow = s.agent.pendingWindow
    simp only [Agent.pendingWindow, refresher_edited, commands_edited]
  | told command =>
    simp [Agent.pendingWindow, Agent.tell, Move.windowAfter]
  | responded response =>
    show (s.agent.respond response).pendingWindow = s.agent.pendingWindow
    simp only [Agent.pendingWindow, Agent.refresher_respond, Agent.commands_respond]
  | @acted m _ _ htell hacts =>
    have hwindow : m.windowAfter s.agent.pendingWindow = s.agent.pendingWindow := by
      cases m with
      | tell command => exact absurd rfl (htell command)
      | _ => rfl
    rw [hwindow]
    exact Agent.pendingWindow_acts hacts running

theorem pendingWindow_run {s t : Scene} {moves : List Move} {effects : List Effect}
    (hrun : s.run? moves = some (t, effects)) (running : t.agent.isRunning = true) :
    s.agent.isRunning = true ∧
      t.agent.pendingWindow = moves.foldl Move.windowAfter s.agent.pendingWindow := by
  induction moves generalizing s effects with
  | nil =>
    obtain ⟨rfl, rfl⟩ : s = t ∧ [] = effects := by simpa [run?] using hrun
    exact ⟨running, rfl⟩
  | cons m rest ih =>
    obtain ⟨u, first, more, hu, hrest, rfl⟩ := run?_cons.1 hrun
    obtain ⟨hrunning, hwindow⟩ := ih hrest
    refine ⟨isRunning_of_step hu hrunning, ?_⟩
    rw [hwindow, pendingWindow_step hu hrunning]
    rfl

end Scene
end MapQuery
