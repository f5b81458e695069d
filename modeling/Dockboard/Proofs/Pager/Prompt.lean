import Dockboard.Proofs.Pager.Window

set_option autoImplicit false

/-! # The prompts of a pager

The key `/` opens a prompt for a search text, and `f` one for a filter. While a prompt is open every
key is a key of the prompt, whatever it means at other times.

    Key.Edits key                `key` neither confirms a prompt nor gives it up
    typed text keys              the text of a prompt after `keys`, if it has been `text`
    prompted p first keys last   `first` opens a prompt, `keys` are pressed in it, `last` ends it

A key that edits changes the text of the prompt and nothing else (`changed_typed`), so that what a
prompt comes to is decided by the key that ends it (`prompted_eq_press`).
-/

namespace Dockboard

/-- The key neither confirms a prompt nor gives it up. -/
def Key.Edits (key : Key) : Prop := key.code ≠ .enter ∧ key.code ≠ .esc

instance (key : Key) : Decidable key.Edits :=
  inferInstanceAs (Decidable (key.code ≠ .enter ∧ key.code ≠ .esc))

namespace Pager

/-! ## The text of a prompt -/

/-- What a key does to the text of a prompt: characters are put at its end, unless they are typed
with control, and backspace takes the last one away. -/
def typeKey (text : List Char) (key : Key) : List Char :=
  match key.code with
  | .backspace => text.dropLast
  | .char c => if key.control then text else text ++ [c]
  | _ => text

/-- The text of a prompt after some keys. -/
def typed (text : List Char) (keys : List Key) : List Char := keys.foldl typeKey text

/-- The pager when `first` has opened a prompt, `keys` have been pressed in it, and `last` has ended
it. -/
def prompted (p : Pager) (first : Key) (keys : List Key) (last : Key) : Pager :=
  p.changed (.press first :: keys.map .press ++ [.press last])

section Edit

variable {p : Pager} {key : Key}

theorem press_of_prompt (h : p.mode ≠ .browsing) (key : Key) :
    p.press key = (p.edit key, false) := by
  unfold press
  split
  · next hmode => exact absurd hmode h
  · rfl
  · rfl

theorem edit_typed (h : key.Edits) : p.edit key = { p with input := typeKey p.input key } := by
  obtain ⟨henter, hesc⟩ := h
  unfold edit typeKey
  cases hcode : key.code with
  | enter => exact absurd hcode henter
  | esc => exact absurd hcode hesc
  | char c =>
      show (if key.control then p else { p with input := p.input ++ [c] }) = _
      split <;> rfl
  | _ => rfl

/-- Keys that edit change the text of the prompt and nothing else. -/
theorem changed_typed (hmode : p.mode ≠ .browsing) {keys : List Key}
    (hkeys : ∀ key ∈ keys, key.Edits) :
    p.changed (keys.map .press) = { p with input := typed p.input keys } := by
  induction keys generalizing p with
  | nil => rfl
  | cons key keys ih =>
      have hpress : (p.press key).1 = { p with input := typeKey p.input key } := by
        rw [press_of_prompt hmode, edit_typed (hkeys key List.mem_cons_self)]
      show (p.press key).1.changed (keys.map .press) = _
      have hrest : ({ p with input := typeKey p.input key } : Pager).changed (keys.map .press) =
          { p with input := typed (typeKey p.input key) keys } :=
        ih hmode fun key hkey => hkeys key (List.mem_cons_of_mem _ hkey)
      rw [hpress, hrest]
      rfl

/-! ## The end of a prompt -/

theorem jumpToCurrent_prompt (p : Pager) (mode : PagerMode) (input : List Char) :
    jumpToCurrent { p with mode, input } = { p.jumpToCurrent with mode, input } := by
  have hcurrent : ({ p with mode, input } : Pager).current? = p.current? := rfl
  unfold jumpToCurrent
  rw [hcurrent]
  cases p.current? <;> rfl

/-- A search takes no notice of the prompt. -/
theorem setSearch_prompt (p : Pager) (mode : PagerMode) (input search : List Char) :
    setSearch { p with mode, input } search = { p.setSearch search with mode, input } :=
  let q := research { p with search }
  jumpToCurrent_prompt { q with currentMatch := q.firstMatch } mode input

theorem confirmPrompt_search (h : p.mode = .searching) :
    p.confirmPrompt = { p.setSearch p.input with mode := .browsing, input := [] } := by
  have hsearch : setSearch { p with input := [] } p.input =
      { p.setSearch p.input with mode := p.mode, input := [] } :=
    setSearch_prompt p p.mode [] p.input
  simp only [h] at hsearch
  unfold confirmPrompt
  simp only [h, hsearch]

theorem confirmPrompt_filter (h : p.mode = .filtering) :
    p.confirmPrompt = { p.setFilter p.input with mode := .browsing, input := [] } := by
  unfold confirmPrompt
  simp only [h]
  rfl

theorem cancelPrompt_search (h : p.mode = .searching) :
    p.cancelPrompt = { p with mode := .browsing, input := [] } := by
  unfold cancelPrompt
  rw [if_neg (by rw [h]; decide)]

theorem cancelPrompt_filter (h : p.mode = .filtering) :
    p.cancelPrompt = { p.setFilter [] with mode := .browsing, input := [] } := by
  unfold cancelPrompt
  rw [if_pos h]

end Edit

/-! ## From the first key to the last -/

section Prompted

variable {p : Pager} {first last : Key} {keys : List Key}

theorem press_slash (hmode : p.mode = .browsing) (hcode : first.code = .char '/') :
    (p.press first).1 = { p with mode := .searching, input := [] } := by
  unfold press
  rw [hmode]
  unfold browse
  rw [hcode]
  rfl

theorem press_f (hmode : p.mode = .browsing) (hcode : first.code = .char 'f') :
    (p.press first).1 = { p with mode := .filtering, input := p.filter } := by
  unfold press
  rw [hmode]
  unfold browse
  rw [hcode]
  rfl

theorem press_enter (hmode : p.mode ≠ .browsing) (hcode : last.code = .enter) :
    (p.press last).1 = p.confirmPrompt := by
  rw [press_of_prompt hmode]
  unfold edit
  rw [hcode]

theorem press_esc (hmode : p.mode ≠ .browsing) (hcode : last.code = .esc) :
    (p.press last).1 = p.cancelPrompt := by
  rw [press_of_prompt hmode]
  unfold edit
  rw [hcode]

/-- The prompt as it is when the last key is pressed. -/
theorem prompted_eq_press {mode : PagerMode} {input : List Char} (hmode : mode ≠ .browsing)
    (hopen : (p.press first).1 = { p with mode, input }) (hkeys : ∀ key ∈ keys, key.Edits) :
    p.prompted first keys last =
      (press { p with mode, input := typed input keys } last).1 := by
  have htyped : ({ p with mode, input } : Pager).changed (keys.map .press) =
      { p with mode, input := typed input keys } :=
    changed_typed hmode hkeys
  have hsplit : p.prompted first keys last =
      (((p.press first).1.changed (keys.map .press)).press last).1 :=
    List.foldl_concat _ _ _ _
  rw [hsplit, hopen, htyped]

end Prompted

/-! ## What a prompt does -/

/-- What a key does to a pager `p` while a prompt is open. -/
structure InPrompt (p : Pager) (key : Key) : Prop where
  not_closed : (p.press key).2 = false
  holding_eq : (p.press key).1.holding = p.holding
  open_iff : (p.press key).1.mode ≠ .browsing ↔ key.Edits
  typed : key.Edits → (p.press key).1 = { p with input := typeKey p.input key }

theorem inPrompt {p : Pager} (hmode : p.mode ≠ .browsing) (key : Key) : p.InPrompt key := by
  have htyped (hkey : key.Edits) : (p.press key).1 = { p with input := typeKey p.input key } := by
    rw [press_of_prompt hmode, edit_typed hkey]
  refine ⟨by rw [press_of_prompt hmode], press_holding p key, ⟨fun hopen => ⟨?_, ?_⟩, ?_⟩, htyped⟩
  · intro hcode
    rw [press_enter hmode hcode] at hopen
    exact hopen rfl
  · intro hcode
    rw [press_esc hmode hcode] at hopen
    exact hopen rfl
  · intro hkey
    rw [htyped hkey]
    exact hmode

/-- **Prompts.** A search that is given up leaves the pager as it was, and a filter that is given up
is removed. What is confirmed is the text that the keys have made of the empty one, or of the filter
there has been. Meanwhile no key closes the pager or changes its content, and none but the last does
anything but change the text of the prompt. -/
theorem prompted_eq :
    (∀ (p : Pager) (first : Key) (keys : List Key) (last : Key),
      p.mode = .browsing → p.input = [] → (∀ key ∈ keys, key.Edits) →
        (first.code = .char '/' → last.code = .esc → p.prompted first keys last = p) ∧
        (first.code = .char '/' → last.code = .enter →
          p.prompted first keys last = p.setSearch (typed [] keys)) ∧
        (first.code = .char 'f' → last.code = .esc →
          p.prompted first keys last = p.setFilter []) ∧
        (first.code = .char 'f' → last.code = .enter →
          p.prompted first keys last = p.setFilter (typed p.filter keys))) ∧
    ∀ p : Pager, p.mode ≠ .browsing → ∀ key, p.InPrompt key := by
  refine ⟨fun p first keys last hmode hinput hkeys => ?_, fun p => inPrompt⟩
  -- In the end the prompt is as it was in the beginning: not open, and empty.
  have hstart : ({ p with mode := .browsing, input := [] } : Pager) = p := by
    rw [← hmode, ← hinput]
  have hsearching : PagerMode.searching ≠ .browsing := by decide
  have hfiltering : PagerMode.filtering ≠ .browsing := by decide
  refine ⟨fun hfirst hlast => ?_, fun hfirst hlast => ?_, fun hfirst hlast => ?_,
    fun hfirst hlast => ?_⟩
  · rw [prompted_eq_press hsearching (press_slash hmode hfirst) hkeys, press_esc hsearching hlast,
      cancelPrompt_search rfl]
    exact hstart
  · rw [prompted_eq_press hsearching (press_slash hmode hfirst) hkeys, press_enter hsearching hlast,
      confirmPrompt_search rfl, setSearch_prompt]
    conv_rhs => rw [← hstart, setSearch_prompt]
  · rw [prompted_eq_press hfiltering (press_f hmode hfirst) hkeys, press_esc hfiltering hlast,
      cancelPrompt_filter rfl]
    conv_rhs => rw [← hstart]
    rfl
  · rw [prompted_eq_press hfiltering (press_f hmode hfirst) hkeys, press_enter hfiltering hlast,
      confirmPrompt_filter rfl]
    conv_rhs => rw [← hstart]
    rfl

/-- Keys that move the window or close the pager at other times are typed, and backspace takes the
last one away. A character typed with control is none. -/
theorem prompted_eq_of_keys :
    let p := (new "logs" ['a', '\n', 'b', 'a', '\n', 'b', 'q'] 100).setFilter ['b']
    let keys : List Key := [{ code := .char 'q' }, { code := .up }, { code := .backspace },
      { code := .char 'n', control := true }, { code := .char 'a', shift := true }]
    p.visible = [['b', 'a'], ['b', 'q']] ∧
      p.prompted { code := .char '/' } keys { code := .esc } = p ∧
      (p.prompted { code := .char '/' } keys { code := .enter }).found = [⟨0, 1, 2⟩] ∧
      (p.prompted { code := .char 'f' } keys { code := .esc }).visible.length = 3 ∧
      (p.prompted { code := .char 'f' } keys { code := .enter }).visible = [['b', 'a']] ∧
      ((p.press { code := .char '/' }).1.press { code := .char 'q' }).2 = false := by
  intro p keys
  have hkeys : ∀ key ∈ keys, key.Edits := by decide
  obtain ⟨hprompted, hpressed⟩ := prompted_eq
  have hends (first last : Key) := hprompted p first keys last rfl rfl hkeys
  refine ⟨by decide, (hends _ _).1 rfl rfl, ?_, ?_, ?_, (hpressed _ ?_ _).not_closed⟩
  · rw [(hends _ _).2.1 rfl rfl]
    decide
  · rw [(hends _ _).2.2.1 rfl rfl]
    decide
  · rw [(hends _ _).2.2.2 rfl rfl]
    decide
  · decide

end Pager

end Dockboard
