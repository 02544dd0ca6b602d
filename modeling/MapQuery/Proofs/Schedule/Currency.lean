import MapQuery.Proofs.Schedule.Refresh
import MapQuery.Proofs.Workspace.Announcements
import MapQuery.Schedule.Agent

/-!
# Layers that are current

A layer that does not show what the content and the time window call for is always going to be
looked at again: a debounce window is armed, or changes were lost, or one of the changes that the
agent has yet to hear of concerns the layer by the content as it is now.
-/

set_option autoImplicit false

namespace MapQuery

namespace Refresher

/-- The request that a pipeline without a past makes of a compiled query and the time window. -/
def freshRequest? (r : Refresher) (q : CompiledQuery) : Option Parameters :=
  (pipelineFor? { r with pipeline := .empty } q).map (·.apply r.source.base)

/-- The last action was what the content and the time window call for: the results were dropped
because no area is included though one has to be, or the request was issued that a pipeline without
a past makes of the compiled query. -/
def IsCurrent (r : Refresher) (c : Content) (last : Option Effect) : Prop :=
  if r.failsClosed (r.resolution c) then
    last = some .clear ∧ r.published.advisories = (r.resolution c).advisories
  else
    ∃ generation params, r.freshRequest? (r.query c) = some params ∧
      last = some (.fetch generation params) ∧ r.published.lastRequest = some params ∧
      r.published.advisories = (r.query c).advisories

theorem map_apply_pipelineFor? {r : Refresher} (h : r.pipeline.IsInstalled) (q : CompiledQuery) :
    (r.pipelineFor? q).map (·.apply r.source.base) = r.freshRequest? q := by
  unfold freshRequest? pipelineFor?
  cases hwindow : r.window with
  | none =>
    show some _ = some _
    rw [Pipeline.install_eq_empty_install _ _ _ _ h]
    rfl
  | some w =>
    show Option.map _ (Option.map _ _) = Option.map _ (Option.map _ _)
    simp only [Option.map_map]
    congr 1
    funext part
    simp only [Pipeline.install_eq_empty_install _ _ _ _ h]
    rfl

/-- Only the source, the pace, the window, what is known of the last request and the resolution
decide whether a refresher is current. -/
theorem IsCurrent.congr {r r' : Refresher} {c c' : Content} {last : Option Effect}
    (h : r.IsCurrent c last) (hsource : r'.source = r.source) (hpace : r'.pace = r.pace)
    (hwindow : r'.window = r.window)
    (hrequest : r'.published.lastRequest = r.published.lastRequest)
    (hadvisories : r'.published.advisories = r.published.advisories)
    (hresolve : c'.resolve r.source.layer = c.resolve r.source.layer) : r'.IsCurrent c' last := by
  have hresolution : r'.resolution c' = r.resolution c := by
    simp only [resolution, hsource, hresolve]
  have hquery : r'.query c' = r.query c := by simp only [query, hsource, hresolution]
  have hcloses : r'.failsClosed (r'.resolution c') = r.failsClosed (r.resolution c) := by
    rw [hresolution]
    simp only [failsClosed, hsource]
  have hfresh : r'.freshRequest? (r'.query c') = r.freshRequest? (r.query c) := by
    rw [hquery]
    simp only [freshRequest?, pipelineFor?, grammar, hsource, hpace, hwindow]
  unfold IsCurrent at h ⊢
  rw [hcloses, hfresh, hquery, hresolution, hrequest, hadvisories]
  exact h

theorem source_close (resolution : Resolution) (r : Refresher) :
    (r.close resolution).1.source = r.source := by
  simp only [close, abort]
  split <;> rfl

theorem isCurrent_close {r : Refresher} {c : Content} (done : List Effect)
    (h : r.failsClosed (r.resolution c) = true) :
    (r.disarmed.close (r.resolution c)).1.IsCurrent c
      (lastAction? (done ++ (r.disarmed.close (r.resolution c)).2)) := by
  have hlast : lastAction? (done ++ (r.disarmed.close (r.resolution c)).2) = some .clear := by
    show lastAction? (done ++ (_ ++ [_])) = _
    rw [← List.append_assoc]
    exact lastAction?_append_action _ rfl
  rw [hlast]
  have hresolution : (r.disarmed.close (r.resolution c)).1.resolution c = r.resolution c := by
    simp only [resolution, source_close]
    rfl
  unfold IsCurrent
  rw [hresolution, if_pos]
  · exact ⟨rfl, rfl⟩
  · simp only [failsClosed, source_close] at h ⊢
    exact h

theorem isCurrent_issue {r : Refresher} {c : Content} {pipeline : Pipeline} (done : List Effect)
    (hinstalled : r.pipeline.IsInstalled) (hflight : r.status.inFlight = false)
    (hopen : r.failsClosed (r.resolution c) = false)
    (hpipeline : r.pipelineFor? (r.query c) = some pipeline) :
    (r.disarmed.issue (r.query c) pipeline).1.IsCurrent c
      (lastAction? (done ++ (r.disarmed.issue (r.query c) pipeline).2)) := by
  have habort : r.disarmed.abort = (r.disarmed, []) := by
    simp [abort, disarmed, hflight]
  have hfresh := map_apply_pipelineFor? hinstalled (r.query c)
  rw [hpipeline] at hfresh
  simp only [issue, habort, List.nil_append]
  rw [lastAction?_append_action _ rfl]
  unfold IsCurrent
  rw [if_neg]
  · exact ⟨_, _, hfresh.symm, rfl, rfl, rfl⟩
  · show ¬ r.failsClosed (r.resolution c) = true
    rw [hopen]
    decide

end Refresher

namespace Agent

/-- A running agent is going to look at its layer again, or need not: the debounce window is armed,
the layer is hidden, changes were lost, a change to hear of concerns the layer by the content as it
is now, or the last action is current. -/
inductive IsCovered (a : Agent) (c : Content) (done : List Effect) : Prop
  | armed (h : a.refresher.deadline.isSome = true)
  | hidden (h : a.refresher.status.visible = false)
  | lagged (h : a.lagged = true)
  | unheard (change : Change) (h : change ∈ a.unread)
      (hconcerns : c.concerns a.layerId change = true)
  | current (h : a.refresher.IsCurrent c (lastAction? done))

/-- Commands and replies that wait have no part in it. -/
theorem IsCovered.congr {a b : Agent} {c : Content} {done : List Effect} (h : a.IsCovered c done)
    (hrefresher : b.refresher = a.refresher) (hunread : b.unread = a.unread)
    (hlagged : b.lagged = a.lagged) : b.IsCovered c done := by
  have hlayer : b.layerId = a.layerId := by simp only [layerId, hrefresher]
  cases h with
  | armed h =>
    rw [← hrefresher] at h
    exact .armed h
  | hidden h =>
    rw [← hrefresher] at h
    exact .hidden h
  | lagged h =>
    rw [← hlagged] at h
    exact .lagged h
  | unheard change h hconcerns =>
    rw [← hunread] at h
    rw [← hlayer] at hconcerns
    exact .unheard change h hconcerns
  | current h =>
    rw [← hrefresher] at h
    exact .current h

/-- An edit may take away the reference by which a change would have mattered, or alter the
resolution itself; either way its own announcement concerns the layer. -/
theorem IsCovered.announce {a : Agent} {c : Content} {done : List Effect} (h : a.IsCovered c done)
    (running : a.isRunning = true) {e : Edit} {change : Change}
    (hchange : c.announced e = some change) :
    (a.announce change).IsCovered (c.edit e) done := by
  by_cases hroom : a.unread.length < capacity
  · have hannounce : a.announce change = { a with unread := a.unread ++ [change] } := by
      simp [Agent.announce, running, hroom]
    rw [hannounce]
    cases h with
    | armed h => exact .armed h
    | hidden h => exact .hidden h
    | lagged h => exact .lagged h
    | unheard earlier hearlier hconcerns =>
      -- If the edit takes away the reference that made the earlier change matter, its own matters.
      rcases Content.entriesFor_edit c e a.layerId with hentries | ⟨own, hown, halways⟩
      · apply IsCovered.unheard earlier (List.mem_append_left _ hearlier)
        exact (Content.concerns_congr hentries earlier).trans hconcerns
      · obtain rfl : own = change := Option.some.inj (hown.symm.trans hchange)
        exact .unheard own (by simp) (halways _)
    | current h =>
      cases hnow : (c.edit e).concerns a.layerId change with
      | true => exact .unheard change (by simp) hnow
      | false =>
        apply IsCovered.current
        apply h.congr rfl rfl rfl rfl rfl
        apply Content.resolve_edit
        intro own hown
        obtain rfl : change = own := Option.some.inj (hchange.symm.trans hown)
        exact hnow
  · -- Without room the oldest change is lost, which the agent is told of.
    have hannounce : a.announce change =
        { a with unread := a.unread.drop 1 ++ [change], lagged := true } := by
      simp [Agent.announce, running, hroom]
    rw [hannounce]
    exact .lagged rfl

theorem IsCovered.hear {a : Agent} {c : Content} {done : List Effect} {change : Change}
    {rest : List Change} (h : a.IsCovered c done) (hunread : a.unread = change :: rest)
    (hlagged : a.lagged = false) (now : Nat) :
    (Agent.hear now c change { a with unread := rest }).IsCovered c done := by
  cases hconcerns : c.concerns a.layerId change with
  | true =>
    apply IsCovered.armed
    show (Refresher.hear now c change a.refresher).deadline.isSome = true
    unfold layerId at hconcerns
    unfold Refresher.hear
    rw [if_pos hconcerns]
    rfl
  | false =>
    have hheard : Refresher.hear now c change a.refresher = a.refresher := by
      unfold Refresher.hear
      rw [if_neg]
      show ¬ c.concerns a.layerId change = true
      rw [hconcerns]
      decide
    have hsame : Agent.hear now c change { a with unread := rest } = { a with unread := rest } := by
      simp only [Agent.hear, hheard]
    rw [hsame]
    cases h with
    | armed h => exact .armed h
    | hidden h => exact .hidden h
    | lagged h =>
      rw [hlagged] at h
      cases h
    | unheard other hother hmatters =>
      rw [hunread] at hother
      rcases List.mem_cons.1 hother with rfl | hrest
      · rw [hconcerns] at hmatters
        cases hmatters
      · exact .unheard other hrest hmatters
    | current h => exact .current h

theorem IsCovered.obey {a : Agent} {c : Content} {done : List Effect} (h : a.IsCovered c done)
    {command : Command} (now : Nat) (running : (a.obey now command).1.isRunning = true) :
    (a.obey now command).1.IsCovered c (done ++ (a.obey now command).2) := by
  cases command with
  | refresh => exact .armed rfl
  | setWindow window => exact .armed rfl
  | setVisible visible =>
    by_cases hsame : a.refresher.status.visible = visible
    · have hset : Refresher.setVisible now visible a.refresher = a.refresher := by
        simp [Refresher.setVisible, hsame]
      simp only [Agent.obey, hset, List.append_nil]
      exact h
    · apply IsCovered.armed
      show (Refresher.setVisible now visible a.refresher).deadline.isSome = true
      unfold Refresher.setVisible
      rw [if_neg hsame]
      rfl
  | stop => exact absurd running (by simp [Agent.obey, Agent.stop, finish, isRunning])

theorem IsCovered.receive {a : Agent} {c : Content} {done : List Effect} (h : a.IsCovered c done)
    (hfaithful : a.refresher.Faithful) (response : Response) :
    (a.receive response).1.IsCovered c (done ++ (a.receive response).2) := by
  rcases a.refresher.complete_cases response.generation response.reply with
    ⟨-, -, hcomplete⟩ | ⟨-, hcomplete⟩
  · have hreceive : a.receive response =
        ({ a with refresher := a.refresher.completed },
          Refresher.replyEffects response.generation response.reply) := by
      simp only [Agent.receive, hcomplete]
    rw [hreceive]
    cases h with
    | armed h => exact .armed h
    | hidden h => exact .hidden h
    | lagged h => exact .lagged h
    | unheard change h hconcerns => exact .unheard change h hconcerns
    | current h =>
      apply IsCovered.current
      rw [lastAction?_append_of_none fun e he => Refresher.isAction_replyEffects he]
      exact h.congr rfl rfl rfl hfaithful.lastRequest.symm hfaithful.advisories.symm rfl
  · have hreceive : a.receive response = (a, []) := by
      simp only [Agent.receive, hcomplete]
    rw [hreceive, List.append_nil]
    exact h

theorem isCovered_expire {a : Agent} {c : Content} (hfaithful : a.refresher.Faithful) (now : Nat)
    (done : List Effect) (running : (a.expire now c).1.isRunning = true) :
    (a.expire now c).1.IsCovered c (done ++ (a.expire now c).2) := by
  unfold Agent.expire at running ⊢
  cases hexpire : a.refresher.expire now c with
  | none =>
    rw [hexpire] at running
    exact absurd running (by simp [finish, isRunning])
  | some result =>
    show IsCovered { a with refresher := result.1 } c (done ++ result.2)
    cases Refresher.expiry_of_expire hexpire with
    | rearmed => exact .armed rfl
    | postponed hhidden => exact .hidden hhidden
    | closed _ hclosed => exact .current (Refresher.isCurrent_close done hclosed)
    | issued pipeline _ hflight hopen hpipeline =>
      apply IsCovered.current
      exact Refresher.isCurrent_issue done hfaithful.installed hflight hopen hpipeline

end Agent

end MapQuery
