import Dockboard.Proofs.Session.Operations

set_option autoImplicit false

/-! # The focus of a prompt

A prompt that stands before the view takes every key until it has its answer, and nothing else that
happens reaches it or leads to another view.

    p.after event            what an event makes of the prompt `p`, unless it is the answer
    p.afterAll events        the same of several events
    Opens s event p          the event opens the prompt `p`
    HeldSince s events p     `p` was opened once, and is what the keys since then have made of it

What one event does is told by `react_prompt`: a prompt that stands behind it has either been opened
by it or stood before it too. So each prompt of a run goes back to the event that opened it
(`run_held`).
-/

namespace Dockboard

/-- The key that an event presses. -/
def Event.key? (event : Event) : Option Key :=
  match event.msg? with
  | some (.key key) => some key
  | _ => none

namespace Prompt

/-- What an event makes of a prompt, unless it is the answer. -/
def after (p : Prompt Followup Action) (event : Event) : Option (Prompt Followup Action) :=
  match event.key? with
  | none => some p
  | some key => (p.press key).getRight?

/-- What events make of a prompt, unless one of them is the answer. -/
def afterAll (p : Prompt Followup Action) (events : List Event) :
    Option (Prompt Followup Action) :=
  events.foldl (fun q event => q.bind (·.after event)) (some p)

theorem after_of_key? {p : Prompt Followup Action} {event : Event} (h : event.key? = none) :
    p.after event = some p := by
  rw [after, h]

theorem after_of_press {p p' : Prompt Followup Action} {event : Event} {key : Key}
    (hkey : event.key? = some key) (h : p.press key = .inr p') : p.after event = some p' := by
  rw [after, hkey]
  exact congrArg Sum.getRight? h

/-- What a prompt is for stays as it is. -/
theorem after_tag {p p' : Prompt Followup Action} {event : Event} (h : p.after event = some p') :
    p'.tag = p.tag ∧ p'.target = p.target := by
  unfold after at h
  split at h
  · cases h
    exact ⟨rfl, rfl⟩
  · exact press_stays (Sum.getRight?_eq_some_iff.mp h)

theorem afterAll_concat (p : Prompt Followup Action) (events : List Event) (event : Event) :
    p.afterAll (events ++ [event]) = (p.afterAll events).bind (·.after event) :=
  List.foldl_append

end Prompt

namespace State

/-! ## One event -/

theorem react_untouched (s : State) {event : Event} (h : event.key? = none) :
    Untouched s (s.react event) := by
  have hmsg (msg : Msg) (hkey : ∀ key, msg = .key key → event.key? = some key) :
      Untouched s (s.step msg) := by
    refine step_untouched s msg fun key heq => ?_
    rw [hkey key heq] at h
    cases h
  cases event with
  | begin => exact begin_untouched s
  | input msg => exact hmsg msg fun key heq => by rw [heq]; rfl
  | answer cmd number msg => exact hmsg msg fun key heq => by rw [heq]; rfl

theorem react_key (s : State) {event : Event} {key : Key} (h : event.key? = some key) :
    s.react event = s.press key := by
  have hmsg (msg : Msg) (hbrings : event.msg? = some msg) : s.step msg = s.press key := by
    unfold Event.key? at h
    rw [hbrings] at h
    cases msg <;> cases h
    rfl
  cases event with
  | begin => cases h
  | input msg => exact hmsg msg rfl
  | answer cmd number msg => exact hmsg msg rfl

/-- An event opens a prompt, before the view that is active already: it presses a key while nothing
stands before the view, or the answer to another prompt. -/
structure Opens (s : State) (event : Event) (p : Prompt Followup Action) : Prop where
  key : ∃ key, event.key? = some key ∧ (s.layer = none ∨
    ∃ q outcome, s.layer = some (.prompt q) ∧ q.press key = .inl outcome)
  layer : (s.react event).1.layer = some (.prompt p)
  view : (s.react event).1.view = s.view

/-- **One event.** A prompt that stands after it has been opened by it, or has stood before it. -/
theorem react_prompt {s : State} {event : Event} {p' : Prompt Followup Action}
    (h : (s.react event).1.layer = some (.prompt p')) :
    s.Opens event p' ∨ (s.react event).1.view = s.view ∧
      ∃ p, s.layer = some (.prompt p) ∧ p.after event = some p' := by
  obtain ⟨hview, -⟩ := (react_follows s event).prompts p' h
  cases hkey : event.key? with
  | none =>
      have hprompt := ((react_untouched s hkey).prompt p').mp h
      exact Or.inr ⟨hview, p', hprompt, Prompt.after_of_key? hkey⟩
  | some key =>
      -- A key goes to what stands before the view, and to the view if nothing does.
      cases hlayer : s.layer with
      | none => exact Or.inl ⟨⟨key, hkey, Or.inl hlayer⟩, h, hview⟩
      | some layer =>
          cases layer with
          | prompt p =>
              cases hpress : p.press key with
              | inl outcome =>
                  exact Or.inl ⟨⟨key, hkey, Or.inr ⟨p, outcome, hlayer, hpress⟩⟩, h, hview⟩
              | inr stays =>
                  rw [react_key s hkey, press_prompt key hlayer, pressPrompt, hpress] at h
                  cases h
                  exact Or.inr ⟨hview, p, rfl, Prompt.after_of_press hkey hpress⟩
          | pager layer =>
              rw [react_key s hkey, press_pager key hlayer] at h
              exact absurd h (pressPager_unasked s layer key p')

/-! ## Runs -/

/-- After `events` the prompt `p` stands, which was opened by one of them. No event since then was
the answer: all along it has stood before the view that was active then, being what the keys had
made of it. -/
def HeldSince (s : State) (events : List Event) (p : Prompt Followup Action) : Prop :=
  ∃ earlier opening since first, events = earlier ++ opening :: since ∧
    (s.run earlier).Opens opening first ∧ p.tag = first.tag ∧ p.target = first.target ∧
    first.afterAll since = some p ∧
    ∀ mid, mid <+: since →
      (s.run (earlier ++ opening :: mid)).view = (s.run earlier).view ∧
      (s.run (earlier ++ opening :: mid)).layer = (first.afterAll mid).map .prompt

theorem HeldSince.opened {s : State} {events : List Event} {event : Event}
    {p : Prompt Followup Action} (h : (s.run events).Opens event p) :
    HeldSince s (events ++ [event]) p := by
  refine ⟨events, event, [], p, rfl, h, rfl, rfl, rfl, fun mid hmid => ?_⟩
  rw [List.prefix_nil.mp hmid, run_concat]
  exact ⟨h.view, h.layer⟩

theorem HeldSince.kept {s : State} {events : List Event} {event : Event}
    {p p' : Prompt Followup Action} (h : HeldSince s events p)
    (hview : ((s.run events).react event).1.view = (s.run events).view)
    (hlayer : ((s.run events).react event).1.layer = some (.prompt p'))
    (hafter : p.after event = some p') : HeldSince s (events ++ [event]) p' := by
  obtain ⟨earlier, opening, since, first, rfl, hopens, htag, htarget, hsince, hall⟩ := h
  obtain ⟨htag', htarget'⟩ := Prompt.after_tag hafter
  have hlast : first.afterAll (since ++ [event]) = some p' := by
    rw [Prompt.afterAll_concat, hsince, Option.bind_some, hafter]
  refine ⟨earlier, opening, since ++ [event], first, by simp, hopens, htag'.trans htag,
    htarget'.trans htarget, hlast, fun mid hmid => ?_⟩
  -- Up to the last event this is known; after it `p'` stands there.
  rcases List.prefix_concat_iff.mp hmid with rfl | hbefore
  · have hsplit : earlier ++ opening :: (since ++ [event]) =
        (earlier ++ opening :: since) ++ [event] := by simp
    rw [hsplit, run_concat, hlast]
    exact ⟨hview.trans (hall since (List.prefix_refl _)).1, hlayer⟩
  · exact hall mid hbefore

theorem run_held {s : State} (hbare : s.layer = none) (events : List Event) :
    ∀ p, (s.run events).layer = some (.prompt p) → HeldSince s events p := by
  induction events using List.reverseRecOn with
  | nil =>
      intro p hp
      rw [show s.run [] = s from rfl, hbare] at hp
      cases hp
  | append_singleton events event ih =>
      intro p' hp'
      rw [run_concat] at hp'
      rcases react_prompt hp' with hopens | ⟨hview, p, hp, hafter⟩
      · exact .opened hopens
      · exact (ih p hp).kept hview hp' hafter

/-- Nothing comes before the view by an answer, unless it is a choice from a menu. -/
theorem onOutcome_layer {s : State} {tag : Followup} {outcome : Outcome Action}
    (h : tag = .menu → ∀ action, outcome ≠ .selected action) (target : Target) :
    (s.onOutcome tag target outcome).1.layer = s.layer := by
  unfold onOutcome
  split
  · next action => exact absurd rfl (h rfl action)
  · rfl
  · rfl
  · unfold onScale
    split <;> rfl
  · unfold onAvailability
    split <;> rfl
  · rfl

/-- **Focus.** Whatever has happened to a session in which a prompt stands before the view:

 - a message that is not a key leaves the prompt as it is and the view active that is so;
 - a key that is no answer to the prompt changes nothing but the prompt, and asks for nothing;
 - a key that answers it takes the prompt away and leads to what follows this answer to what the
   prompt is for, and to nothing else;
 - and the prompt is for what it was opened for, the view that was active then has been active ever
   since, and no answer has been given to it yet. -/
theorem prompt_focus (config : Config) (now : Int) (events : List Event)
    (p : Prompt Followup Action)
    (h : ((State.new config now).run events).layer = some (.prompt p)) :
    let s := (State.new config now).run events
    (∀ msg, (∀ key, msg ≠ .key key) →
      (s.step msg).1.layer = some (.prompt p) ∧ (s.step msg).1.view = s.view) ∧
    (∀ key p', p.press key = .inr p' →
      s.step (.key key) = ({ s with layer := some (.prompt p') }, []) ∧
        p'.tag = p.tag ∧ p'.target = p.target) ∧
    (∀ key outcome, p.press key = .inl outcome →
      s.step (.key key) = ({ s with layer := none } : State).onOutcome p.tag p.target outcome ∧
        ((p.tag = .menu → ∀ action, outcome ≠ .selected action) →
          (s.step (.key key)).1.layer = none)) ∧
    HeldSince (State.new config now) events p := by
  intro s
  have hkey (key : Key) : s.step (.key key) = s.pressPrompt p key := press_prompt key h
  refine ⟨fun msg hmsg => ?_, fun key p' hpress => ?_, fun key outcome hpress => ?_, ?_⟩
  · have huntouched := step_untouched s msg hmsg
    exact ⟨(huntouched.prompt p).mpr h, huntouched.view⟩
  · refine ⟨?_, Prompt.press_stays hpress⟩
    rw [hkey, pressPrompt, hpress]
  · have hanswered : s.step (.key key) =
        ({ s with layer := none } : State).onOutcome p.tag p.target outcome := by
      rw [hkey, pressPrompt, hpress]
    refine ⟨hanswered, fun hchoice => ?_⟩
    rw [hanswered]
    exact onOutcome_layer hchoice p.target
  · exact run_held rfl events p h

/-- The menu of a container stands before the view after its last item has been marked, while a text
has arrived: it takes `q` for itself, which closes the menu and not the session. -/
theorem prompt_focus_of_menu : ∃ (events : List Event) (p : Prompt Followup Action),
    events =
      [.begin, .input (.loaded .containers none [.container { id := "f00", name := "web" }]),
        .input (.key { code := .enter }), .input (.key { code := .up }),
        .input (.textLoaded "web" "text")] ∧
    ((State.new {} 0).run events).layer = some (.prompt p) ∧
    (((State.new {} 0).run events).step (.key { code := .char 'q' })).1.quit = false ∧
    (((State.new {} 0).run events).step (.key { code := .char 'q' })).1.layer = none ∧
    HeldSince (State.new {} 0) events p := by
  let events : List Event :=
    [.begin, .input (.loaded .containers none [.container { id := "f00", name := "web" }]),
      .input (.key { code := .enter }), .input (.key { code := .up }),
      .input (.textLoaded "web" "text")]
  obtain ⟨p, hlayer, htag, hpress⟩ : ∃ p : Prompt Followup Action,
      ((State.new {} 0).run events).layer = some (.prompt p) ∧ p.tag = .menu ∧
        p.press { code := .char 'q' } = .inl .dismissed :=
    ⟨_, rfl, rfl, rfl⟩
  obtain ⟨-, -, hanswer, hheld⟩ := prompt_focus {} 0 events p hlayer
  obtain ⟨hstep, hnone⟩ := hanswer _ .dismissed hpress
  refine ⟨events, p, rfl, hlayer, ?_, hnone fun _ action => nofun, hheld⟩
  rw [hstep, htag]
  rfl

end State

end Dockboard
