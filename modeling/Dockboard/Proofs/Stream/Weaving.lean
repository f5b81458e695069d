import Dockboard.Proofs.Stream.Reading
import Dockboard.Proofs.Text.Characters

set_option autoImplicit false

/-! # Logs of several streams

The frames of a log belong to the standard streams of a process, and what these carry is read by one
reader, which holds back the beginning of a character whatever stream it belongs to.

    payloadOf source frames    what the frames of one stream carry
    Interleaves parts whole    `whole` is put together from the parts of all streams
    Seamless frames            no frame of another stream comes inside a character

As long as the log is seamless the reader holds back what a reader of the latest stream alone would
hold back, and one of any other stream would hold back nothing (`Woven`). So the texts of the
streams are interleaved. Otherwise there is a first frame that breaks a character off (`Breaks`),
and what is read is no interleaving of the texts: it has more characters than they have.
-/

namespace Dockboard.Stream

open Dockboard.Text

/-! ## Interleavings -/

/-- The elements of `whole` can be marked with sources such that those of each source are its part,
in order. -/
def Interleaves {α : Type} (parts : Source → List α) (whole : List α) : Prop :=
  ∃ marked : List (Source × α), marked.map Prod.snd = whole ∧
    ∀ source, (marked.filter fun entry => entry.1 = source).map Prod.snd = parts source

namespace Interleaves

variable {α : Type} {parts parts' : Source → List α} {whole : List α}

/-- More of one part, put at the end. -/
theorem append (h : Interleaves parts whole) {source : Source} {more : List α}
    (hsource : parts' source = parts source ++ more)
    (hother : ∀ other, other ≠ source → parts' other = parts other) :
    Interleaves parts' (whole ++ more) := by
  obtain ⟨marked, rfl, hparts⟩ := h
  refine ⟨marked ++ more.map (source, ·), ?_, ?_⟩
  · rw [List.map_append, List.map_map]
    simp [Function.comp_def]
  · intro other
    rw [List.filter_append, List.map_append, hparts, List.filter_map]
    by_cases hsame : other = source
    · subst hsame
      rw [hsource]
      simp [Function.comp_def]
    · rw [hother other hsame]
      simp [Function.comp_def, Ne.symm hsame]

/-- The parts one behind the other are the whole in another order. -/
theorem perm (h : Interleaves parts whole) :
    whole.Perm (parts .stdin ++ (parts .stdout ++ parts .stderr)) := by
  obtain ⟨marked, rfl, hparts⟩ := h
  simp only [← hparts, ← List.map_append]
  apply List.Perm.map
  clear hparts
  induction marked with
  | nil => exact .refl _
  | cons entry marked ih =>
      obtain ⟨source, a⟩ := entry
      cases source with
      | stdin => exact ih.cons _
      | stdout => exact (ih.cons _).trans List.perm_middle.symm
      | stderr =>
          simp only [← List.append_assoc] at ih ⊢
          exact (ih.cons _).trans List.perm_middle.symm

theorem mem_iff (h : Interleaves parts whole) {a : α} :
    a ∈ whole ↔ ∃ source, a ∈ parts source := by
  rw [h.perm.mem_iff, List.mem_append, List.mem_append]
  constructor
  · rintro (ha | ha | ha)
    · exact ⟨.stdin, ha⟩
    · exact ⟨.stdout, ha⟩
    · exact ⟨.stderr, ha⟩
  · rintro ⟨source, ha⟩
    cases source with
    | stdin => exact Or.inl ha
    | stdout => exact Or.inr (Or.inl ha)
    | stderr => exact Or.inr (Or.inr ha)

theorem length_eq (h : Interleaves parts whole) :
    whole.length =
      (parts .stdin).length + ((parts .stdout).length + (parts .stderr).length) := by
  rw [h.perm.length_eq, List.length_append, List.length_append]

end Interleaves

/-! ## Frames of several streams -/

/-- What the frames of one stream carry. -/
def payloadOf (source : Source) (frames : List Frame) : List UInt8 :=
  (frames.filter fun f => f.source = source).flatMap Frame.payload

theorem payloadOf_append (source : Source) (frames more : List Frame) :
    payloadOf source (frames ++ more) = payloadOf source frames ++ payloadOf source more := by
  rw [payloadOf, List.filter_append, List.flatMap_append]
  rfl

theorem payloadOf_cons_self (f : Frame) (frames : List Frame) :
    payloadOf f.source (f :: frames) = f.payload ++ payloadOf f.source frames := by
  rw [payloadOf, List.filter_cons_of_pos (by simp), List.flatMap_cons]
  rfl

theorem payloadOf_concat_self (frames : List Frame) (f : Frame) :
    payloadOf f.source (frames ++ [f]) = payloadOf f.source frames ++ f.payload := by
  rw [payloadOf_append, payloadOf_cons_self]
  simp [payloadOf]

theorem payloadOf_concat_of_ne (frames : List Frame) {f : Frame} {source : Source}
    (h : source ≠ f.source) : payloadOf source (frames ++ [f]) = payloadOf source frames := by
  rw [payloadOf_append]
  simp [payloadOf, Ne.symm h]

/-- What all the frames carry is put together from what those of each stream carry. -/
theorem interleaves_payload (frames : List Frame) :
    Interleaves (fun source => payloadOf source frames) (frames.flatMap Frame.payload) := by
  induction frames using List.reverseRecOn with
  | nil => exact ⟨[], rfl, fun _ => rfl⟩
  | append_singleton frames f ih =>
      rw [List.flatMap_append, List.flatMap_singleton]
      exact ih.append (payloadOf_concat_self frames f) fun _ hne =>
        payloadOf_concat_of_ne frames hne

/-- Whenever a frame is followed by one of another stream, the stream of the first has got to the
end of a character. -/
def Seamless (frames : List Frame) : Prop :=
  ∀ before f g behind, frames = before ++ f :: g :: behind → f.source ≠ g.source →
    Utf8.Whole (payloadOf f.source (before ++ [f]))

theorem Seamless.concat {frames : List Frame} {f g : Frame} (h : Seamless (frames ++ [f]))
    (hlast : f.source ≠ g.source → Utf8.Whole (payloadOf f.source (frames ++ [f]))) :
    Seamless (frames ++ [f] ++ [g]) := by
  intro before f' g' behind heq hne
  -- The switch is the last one, or it is one of the switches before.
  rcases List.eq_nil_or_concat' behind with rfl | ⟨behind, last, rfl⟩
  · have hsplit : before ++ [f', g'] = before ++ [f'] ++ [g'] := by simp
    rw [hsplit] at heq
    obtain ⟨hbefore, hg⟩ := List.append_inj' heq rfl
    obtain ⟨rfl, hf⟩ := List.append_inj' hbefore rfl
    cases hf
    cases hg
    exact hlast hne
  · have hsplit : before ++ f' :: g' :: (behind ++ [last]) =
        before ++ f' :: g' :: behind ++ [last] := by simp
    rw [hsplit] at heq
    exact h before f' g' behind (List.append_inj' heq rfl).1 hne

namespace LogReader

/-! ## One reader for all streams -/

/-- What is held back and read of a stream by a reader of its own. -/
def ownReading (frames : List Frame) (source : Source) : List UInt8 × List Char :=
  Utf8.feed [] (payloadOf source frames)

/-- What is held back and read by the reader of all streams. -/
def jointReading (frames : List Frame) : List UInt8 × List Char :=
  Utf8.feed [] (frames.flatMap Frame.payload)

theorem jointReading_concat (frames : List Frame) (f : Frame) :
    jointReading (frames ++ [f]) =
      ((Utf8.feed (jointReading frames).1 f.payload).1,
        (jointReading frames).2 ++ (Utf8.feed (jointReading frames).1 f.payload).2) := by
  rw [jointReading, List.flatMap_append, List.flatMap_singleton, Utf8.feed_append]
  rfl

theorem ownReading_concat_self (frames : List Frame) (f : Frame) :
    ownReading (frames ++ [f]) f.source =
      ((Utf8.feed (ownReading frames f.source).1 f.payload).1,
        (ownReading frames f.source).2 ++
          (Utf8.feed (ownReading frames f.source).1 f.payload).2) := by
  rw [ownReading, payloadOf_concat_self, Utf8.feed_append]
  rfl

theorem ownReading_concat_of_ne (frames : List Frame) {f : Frame} {source : Source}
    (h : source ≠ f.source) : ownReading (frames ++ [f]) source = ownReading frames source := by
  rw [ownReading, payloadOf_concat_of_ne frames h]
  rfl

/-- The reader of all streams holds back what that of `source` does, those of the others nothing,
and it has read what they all have. -/
structure Woven (frames : List Frame) (source : Source) : Prop where
  held : (jointReading frames).1 = (ownReading frames source).1
  others : ∀ other, other ≠ source → (ownReading frames other).1 = []
  text : Interleaves (fun other => (ownReading frames other).2) (jointReading frames).2

theorem woven_nil (source : Source) : Woven [] source :=
  ⟨rfl, fun _ _ => rfl, [], rfl, fun _ => rfl⟩

/-- **Another frame** of the same stream. -/
theorem Woven.concat {frames : List Frame} {f : Frame} (h : Woven frames f.source) :
    Woven (frames ++ [f]) f.source := by
  constructor
  · rw [jointReading_concat, ownReading_concat_self, h.held]
  · intro other hne
    rw [ownReading_concat_of_ne frames hne]
    exact h.others other hne
  · rw [jointReading_concat]
    apply h.text.append
    · rw [ownReading_concat_self, h.held]
    · intro other hne
      rw [ownReading_concat_of_ne frames hne]

/-- Between characters it makes no difference which stream was read last. -/
theorem Woven.switch {frames : List Frame} {source : Source} (h : Woven frames source)
    (hheld : (ownReading frames source).1 = []) (other : Source) : Woven frames other := by
  have hnone (source' : Source) : (ownReading frames source').1 = [] := by
    by_cases hsame : source' = source
    · rw [hsame]
      exact hheld
    · exact h.others source' hsame
  constructor
  · rw [h.held, hheld, hnone other]
  · exact fun source' _ => hnone source'
  · exact h.text

/-- A frame of another stream comes inside a character, for the first time. -/
def Breaks (frames : List Frame) : Prop :=
  ∃ before f g behind, frames = before ++ f :: g :: behind ∧ f.source ≠ g.source ∧
    Woven (before ++ [f]) f.source ∧ (ownReading (before ++ [f]) f.source).1 ≠ []

theorem Breaks.concat {frames : List Frame} (h : Breaks frames) (g : Frame) :
    Breaks (frames ++ [g]) := by
  obtain ⟨before, f, g', behind, rfl, hne, hwoven, hheld⟩ := h
  exact ⟨before, f, g', behind ++ [g], by simp, hne, hwoven, hheld⟩

/-- Read up to here, the log is seamless, and the streams are woven with the latest one as the
last. -/
structure Flows (frames : List Frame) : Prop where
  seamless : Seamless frames
  woven : ∀ source, (∀ f, frames.getLast? = some f → f.source = source) → Woven frames source

/-- Some stream is the last, any of them if there are no frames. -/
theorem Flows.exists_woven {frames : List Frame} (h : Flows frames) :
    ∃ source, Woven frames source := by
  cases hlast : frames.getLast? with
  | none =>
      refine ⟨.stdout, h.woven _ fun f hf => ?_⟩
      rw [hlast] at hf
      cases hf
  | some g =>
      refine ⟨g.source, h.woven _ fun f hf => ?_⟩
      rw [hlast] at hf
      cases hf
      rfl

theorem flows_nil : Flows [] := by
  constructor
  · intro before f g behind heq
    simp at heq
  · exact fun source _ => woven_nil source

theorem flows_singleton (g : Frame) : Flows [g] := by
  constructor
  · -- A switch takes two frames.
    intro before f g' behind heq
    have hlen := congrArg List.length heq
    simp only [List.length_append, List.length_cons, List.length_nil] at hlen
    omega
  · intro source hlast
    obtain rfl : g.source = source := hlast g rfl
    exact (woven_nil g.source).concat

/-- **One more frame**: the log flows on unless the frame breaks a character of the latest one. -/
theorem Flows.concat {frames : List Frame} {f : Frame} (h : Flows (frames ++ [f])) (g : Frame)
    {text : List Char} (htext : payloadOf f.source (frames ++ [f]) <+: text.flatMap Utf8.encoding) :
    Flows (frames ++ [f] ++ [g]) ∨ Breaks (frames ++ [f] ++ [g]) := by
  have hlatest : Woven (frames ++ [f]) f.source := by
    apply h.woven
    intro f' hf'
    rw [List.getLast?_concat] at hf'
    cases hf'
    rfl
  -- Only a frame of another stream can break a character, and only if one is held back.
  by_cases hbroken : f.source ≠ g.source ∧ (ownReading (frames ++ [f]) f.source).1 ≠ []
  · exact Or.inr ⟨frames, f, g, [], by simp, hbroken.1, hlatest, hbroken.2⟩
  have hnone (hne : f.source ≠ g.source) : (ownReading (frames ++ [f]) f.source).1 = [] :=
    Decidable.byContradiction fun hheld => hbroken ⟨hne, hheld⟩
  have hnext : Woven (frames ++ [f]) g.source := by
    by_cases hsame : f.source = g.source
    · rw [← hsame]
      exact hlatest
    · exact hlatest.switch (hnone hsame) g.source
  refine Or.inl ⟨h.seamless.concat ?_, ?_⟩
  · intro hne
    exact (Utf8.whole_iff htext).mpr (hnone hne)
  · intro source hlast
    obtain rfl : g.source = source := hlast g (List.getLast?_concat ..)
    exact hnext.concat

section Texts

variable {frames : List Frame} {said : Source → List Char}

/-- **Frame by frame** the log flows, or a character is broken. -/
theorem flows_or_breaks
    (hsaid : ∀ source, payloadOf source frames <+: (said source).flatMap Utf8.encoding) :
    Flows frames ∨ Breaks frames := by
  induction frames using List.reverseRecOn with
  | nil => exact Or.inl flows_nil
  | append_singleton frames g ih =>
      have hbefore (source : Source) :
          payloadOf source frames <+: (said source).flatMap Utf8.encoding := by
        refine List.IsPrefix.trans ?_ (hsaid source)
        rw [payloadOf_append]
        exact List.prefix_append _ _
      rcases ih hbefore with hflows | hbreaks
      · rcases List.eq_nil_or_concat' frames with rfl | ⟨frames, f, rfl⟩
        · exact Or.inl (flows_singleton g)
        · exact hflows.concat g (hbefore f.source)
      · exact Or.inr (hbreaks.concat g)

theorem flows_or_breaks_of_texts
    (hsaid : ∀ source, payloadOf source frames = (said source).flatMap Utf8.encoding) :
    Flows frames ∨ Breaks frames := by
  have hpre (source : Source) : payloadOf source frames <+: (said source).flatMap Utf8.encoding :=
    hsaid source ▸ List.prefix_rfl
  exact flows_or_breaks hpre

/-- A character is broken exactly if the log is not seamless. -/
theorem breaks_iff
    (hsaid : ∀ source, payloadOf source frames = (said source).flatMap Utf8.encoding) :
    Breaks frames ↔ ¬ Seamless frames := by
  constructor
  · rintro ⟨before, f, g, behind, heq, hne, -, hheld⟩ hseamless
    obtain ⟨text, htext⟩ := hseamless before f g behind heq hne
    rw [ownReading, htext, Utf8.feed_text] at hheld
    exact hheld rfl
  · intro hnot
    exact (flows_or_breaks_of_texts hsaid).resolve_left fun hflows => hnot hflows.seamless

/-- **A seamless log** is read as an interleaving of the texts. -/
theorem interleaves_of_seamless
    (hsaid : ∀ source, payloadOf source frames = (said source).flatMap Utf8.encoding)
    (h : Seamless frames) : Interleaves said (Utf8.lossy (frames.flatMap Frame.payload)) := by
  have hflows : Flows frames :=
    (flows_or_breaks_of_texts hsaid).resolve_right fun hbreaks => (breaks_iff hsaid).mp hbreaks h
  have hown (source : Source) : ownReading frames source = ([], said source) := by
    rw [ownReading, hsaid, Utf8.feed_text]
  obtain ⟨source, hwoven⟩ := hflows.exists_woven
  have hheld : (jointReading frames).1 = [] := by
    rw [hwoven.held, hown]
  have htext := hwoven.text
  simp only [hown] at htext
  have hlossy : Utf8.lossy (frames.flatMap Frame.payload) = (jointReading frames).2 := by
    show (jointReading frames).2 ++ Utf8.flush (jointReading frames).1 = _
    rw [hheld]
    exact List.append_nil _
  rw [hlossy]
  exact htext

/-- None of the numbers depends on the order in which the bytes of the texts have come. -/
theorem leads_payload
    (hsaid : ∀ source, payloadOf source frames = (said source).flatMap Utf8.encoding) :
    Utf8.leads (frames.flatMap Frame.payload) =
        (said .stdin).length + ((said .stdout).length + (said .stderr).length) ∧
      Utf8.announced (frames.flatMap Frame.payload) = (frames.flatMap Frame.payload).length := by
  have hperm := (interleaves_payload frames).perm
  simp only [hsaid, ← List.flatMap_append] at hperm
  obtain ⟨hleads, hannounced⟩ := Utf8.leads_text (said .stdin ++ (said .stdout ++ said .stderr))
  rw [Utf8.leads_perm hperm, Utf8.announced_perm hperm, hperm.length_eq, hleads, hannounced,
    List.length_append, List.length_append]
  exact ⟨rfl, rfl⟩

/-- **A broken log** has a replacement character, and more characters than the texts. -/
theorem lossy_of_breaks (hne : ∀ f ∈ frames, f.payload ≠ [])
    (hsaid : ∀ source, payloadOf source frames = (said source).flatMap Utf8.encoding)
    (h : Breaks frames) :
    Utf8.replacement ∈ Utf8.lossy (frames.flatMap Frame.payload) ∧
      (said .stdin).length + ((said .stdout).length + (said .stderr).length) <
        (Utf8.lossy (frames.flatMap Frame.payload)).length := by
  obtain ⟨before, f, g, behind, rfl, hother, hwoven, hheld⟩ := h
  obtain ⟨b, more, hpayload⟩ := List.exists_cons_of_ne_nil (hne g (by simp))
  -- The stream of `g` is between two characters, so its next byte begins one.
  have hbegins : Utf8.Begins [b] := by
    have hsplit : before ++ f :: g :: behind = before ++ [f] ++ g :: behind := by simp
    have hnext : payloadOf g.source (before ++ [f]) ++ [b] <+:
        (said g.source).flatMap Utf8.encoding := by
      rw [← hsaid g.source, hsplit, payloadOf_append _ (before ++ [f]), payloadOf_cons_self,
        hpayload]
      exact ⟨more ++ payloadOf g.source behind, by simp⟩
    exact Utf8.begins_of_whole hnext (hwoven.others g.source (Ne.symm hother))
  let seen := (before ++ [f]).flatMap Frame.payload
  let rest := more ++ behind.flatMap Frame.payload
  have hseen : (Utf8.feed [] seen).1 ≠ [] := by
    rw [← hwoven.held] at hheld
    exact hheld
  have hbytes : (before ++ f :: g :: behind).flatMap Frame.payload = seen ++ b :: rest := by
    simp [seen, rest, hpayload]
  obtain ⟨hleads, hannounced⟩ := leads_payload hsaid
  have hlength := Utf8.length_lossy_broken_off hseen hbegins rest
  rw [hbytes] at hleads hannounced ⊢
  constructor
  · rw [Utf8.lossy_broken_off hseen hbegins]
    simp
  · omega

end Texts

theorem textBytes_encodeFrames (frames : List Frame) :
    textBytes (encodeFrames frames) = frames.flatMap Frame.payload := by
  rw [textBytes]
  split
  · next hundecided =>
    cases frames with
    | nil => rfl
    | cons f frames =>
        have hlong := hundecided.1
        rw [encodeFrames_cons, List.length_append, Frame.length_header] at hlong
        exact absurd hlong (Nat.not_lt_of_le (Nat.le_add_right 8 _))
  · exact Demuxer.unframed_encodeFrames frames

/-- However the frames of a log are cut into chunks, the text of what they carry is read. -/
theorem reads_frames {frames : List Frame} {chunks : List (List UInt8)}
    (h : chunks.flatten = encodeFrames frames) :
    ∃ texts last, texts.flatten = Utf8.lossy (frames.flatMap Frame.payload) ∧
      Reads { source := delivering chunks .empty } texts none last := by
  obtain ⟨texts, last, htexts, hreads⟩ := reads_ended chunks rfl
  rw [completed_tail, h, textBytes_encodeFrames] at htexts
  exact ⟨texts, last, htexts, hreads⟩

/-- **Logs of several streams.** Each stream carries a text, which is cut into frames anywhere, none
of them empty, and the frames of the streams come in any order. However the log is cut into chunks,
the same text is read of it. It is an interleaving of the texts of the streams exactly if no frame
of another stream comes inside a character. Otherwise a replacement character is in it, whatever the
texts are. -/
theorem reads_woven (said : Source → List Char) (frames : List Frame)
    (hne : ∀ f ∈ frames, f.payload ≠ [])
    (hsaid : ∀ source, payloadOf source frames = (said source).flatMap Utf8.encoding) :
    ∃ text,
      (∀ chunks : List (List UInt8), chunks.flatten = encodeFrames frames →
        ∃ texts last, texts.flatten = text ∧
          Reads { source := delivering chunks .empty } texts none last) ∧
      (Interleaves said text ↔ Seamless frames) ∧
      (Utf8.replacement ∈ text ↔
        (∃ source, Utf8.replacement ∈ said source) ∨ ¬ Seamless frames) := by
  refine ⟨Utf8.lossy (frames.flatMap Frame.payload), fun _ => reads_frames, ?_⟩
  by_cases hseamless : Seamless frames
  · have hwoven := interleaves_of_seamless hsaid hseamless
    refine ⟨iff_of_true hwoven hseamless, ?_⟩
    rw [hwoven.mem_iff, or_iff_left (not_not_intro hseamless)]
  · obtain ⟨hreplaced, hlonger⟩ := lossy_of_breaks hne hsaid ((breaks_iff hsaid).mpr hseamless)
    constructor
    · refine iff_of_false (fun hwoven => ?_) hseamless
      rw [hwoven.length_eq] at hlonger
      exact Nat.lt_irrefl _ hlonger
    · exact iff_of_true hreplaced (Or.inr hseamless)

/-- Another frame comes between the two bytes of a character: what is read is none of the ways to
put the two texts together, and there are replacement characters in it. -/
theorem reads_woven_of_broken :
    let frames : List Frame :=
      [⟨.stdout, [195], by decide⟩, ⟨.stderr, [120], by decide⟩, ⟨.stdout, [169], by decide⟩]
    let said : Source → List Char := fun
      | .stdin => []
      | .stdout => ['é']
      | .stderr => ['x']
    ∃ text, Utf8.replacement ∈ text ∧ ¬ Interleaves said text ∧
      ∀ chunks : List (List UInt8), chunks.flatten = encodeFrames frames →
        ∃ texts last, texts.flatten = text ∧
          Reads { source := delivering chunks .empty } texts none last := by
  intro frames said
  have hne : ∀ f ∈ frames, f.payload ≠ [] := by simp [frames]
  have hsaid (source : Source) :
      payloadOf source frames = (said source).flatMap Utf8.encoding := by
    cases source <;> rfl
  have hnot : ¬ Seamless frames := by
    intro hseamless
    obtain ⟨text, htext⟩ := hseamless [] _ _ _ rfl (by decide)
    have hread := Utf8.feed_text text
    rw [← htext] at hread
    have hheld : [195] = ([] : List UInt8) := congrArg Prod.fst hread
    cases hheld
  obtain ⟨text, hreads, hwoven, hreplaced⟩ := reads_woven said frames hne hsaid
  exact ⟨text, hreplaced.mpr (Or.inr hnot), fun h => hnot (hwoven.mp h), hreads⟩

end LogReader

end Dockboard.Stream
