import Dockboard.Engine.Client
import Dockboard.Proofs.Engine.Course
import Dockboard.Resource.Row
import Mathlib

set_option autoImplicit false

/-! # What takes up space, and what of it is in use

The daemon reports objects of four kinds, and tells of each whether it is in use and how large it
is. In the summary of a kind,

    active        counts the objects that could give no space back
    reclaimable   is the size of those that are not in use

An object that is not in use could give its size back. So what is counted are the objects in use,
and besides those that are not in use but have no size, or none that is reported (`length_active`).
-/

namespace Dockboard

open Engine

namespace UsageKind

/-- The objects of a kind in a report. -/
def objects (report : Document) : UsageKind → List Document
  | images => report.itemsAt "Images"
  | containers => report.itemsAt "Containers"
  | volumes => report.itemsAt "Volumes"
  | buildCache => report.itemsAt "BuildCache"

/-- Whether an object is in use: an image by containers, a container if it is running, a volume by
what refers to it. What is kept of a build says so itself. -/
def inUse (kind : UsageKind) (d : Document) : Bool :=
  match kind with
  | images => 0 < d.numberAt "Containers"
  | containers => d.textAt "State" == "running"
  | volumes => 0 < (d.field "UsageData").numberAt "RefCount"
  | buildCache => d.flagAt "InUse"

/-- The size of an object, 0 if none is reported. That of a volume is also below zero if it is not
known. -/
def sizeOf (kind : UsageKind) (d : Document) : Int :=
  match kind with
  | images | buildCache => d.numberAt "Size"
  | containers => d.numberAt "SizeRw"
  | volumes => max ((d.field "UsageData").numberAt "Size") 0

/-- The entry of an object. -/
def entry (kind : UsageKind) (d : Document) : Usage :=
  match kind with
  | images => .ofImage d
  | containers => .ofContainer d
  | volumes => .ofVolume d
  | buildCache => .ofBuildStep d

theorem items_ofDocument (report : Document) (kind : UsageKind) :
    (DiskUsage.ofDocument report).items kind = (kind.objects report).map kind.entry := by
  cases kind <;> rfl

theorem entry_reclaimable (kind : UsageKind) (d : Document) :
    (kind.entry d).reclaimable = if kind.inUse d then 0 else kind.sizeOf d := by
  cases kind with
  | images =>
      by_cases hused : 0 < d.numberAt "Containers" <;>
        simp [entry, Usage.ofImage, Image.ofDocument, inUse, sizeOf, hused]
  | containers => rfl
  | volumes => simp [entry, Usage.ofVolume, inUse, sizeOf]
  | buildCache => rfl

/-- An entry counts as active if its object is in use, and also if it has no size. -/
theorem entry_isActive (kind : UsageKind) (d : Document) :
    (kind.entry d).isActive = (kind.inUse d || kind.sizeOf d == 0) := by
  rw [Usage.isActive, entry_reclaimable]
  cases kind.inUse d <;> rfl

/-! ## Counts and sums -/

/-- How many objects are in use. -/
def used (kind : UsageKind) (objects : List Document) : Nat := objects.countP kind.inUse

/-- How many objects are not in use and have no size. -/
def empty (kind : UsageKind) (objects : List Document) : Nat :=
  objects.countP fun d => !kind.inUse d && kind.sizeOf d == 0

/-- The size of all objects that are not in use. -/
def unusedSize (kind : UsageKind) (objects : List Document) : Int :=
  ((objects.filter fun d => !kind.inUse d).map fun d => max (kind.sizeOf d) 0).sum

theorem length_active (kind : UsageKind) (objects : List Document) :
    ((objects.map kind.entry).filter Usage.isActive).length =
      kind.used objects + kind.empty objects := by
  unfold used empty
  induction objects with
  | nil => rfl
  | cons d objects ih =>
      rw [List.map_cons, List.filter_cons, entry_isActive, List.countP_cons, List.countP_cons]
      -- An object is counted on the right once at most, because it is in use or because it is not.
      cases kind.inUse d <;> cases kind.sizeOf d == 0 <;> simp [ih] <;> omega

theorem empty_eq_zero_iff {kind : UsageKind} {objects : List Document} :
    kind.empty objects = 0 ↔ ∀ d ∈ objects, kind.inUse d = false → kind.sizeOf d ≠ 0 := by
  simp [empty, List.countP_eq_zero]

theorem sum_reclaimable (kind : UsageKind) (objects : List Document) :
    (((objects.map kind.entry).map Usage.reclaimable).map fun size => max size 0).sum =
      kind.unusedSize objects := by
  unfold unusedSize
  induction objects with
  | nil => rfl
  | cons d objects ih =>
      simp only [List.map_cons, List.sum_cons, ih, entry_reclaimable, List.filter_cons]
      cases kind.inUse d <;> simp

end UsageKind

/-! ## Summaries -/

/-- A sum that 64 bits have room for is what it is. -/
theorem DiskUsage.totalSize_eq {sizes : List Int}
    (h : (sizes.map fun size => max size 0).sum < 2 ^ 63) :
    totalSize sizes = (sizes.map fun size => max size 0).sum := by
  have hpos : 0 ≤ (sizes.map fun size => max size 0).sum := by
    apply List.sum_nonneg
    intro size hsize
    obtain ⟨_, -, rfl⟩ := List.mem_map.mp hsize
    exact le_max_right _ _
  rw [totalSize, ← List.sum_eq_foldr]
  apply Int.bmod_eq_of_le <;> omega

/-- A count is written before a slash and a total. -/
theorem written_inj {count other total : Nat} :
    s!"{count}/{total}" = s!"{other}/{total}" ↔ count = other := by
  constructor
  · intro h
    have htexts := congrArg String.toList h
    simp only [String.toList_append] at htexts
    have hcounts := List.append_cancel_right (List.append_cancel_right htexts)
    -- The digits are read again.
    have hnumbers := congrArg (fun digits => Nat.ofDigitChars 10 digits 0) hcounts
    simpa [Nat.toString_eq_ofList_toDigits] using hnumbers
  · rintro rfl
    rfl

/-- What the summary of a kind says of the objects in a report. -/
structure Summarizes (kind : UsageKind) (objects : List Document) (summary : Usage) : Prop where
  /-- What counts as active are the objects in use, and those without a size. -/
  active : summary.active = s!"{kind.used objects + kind.empty objects}/{objects.length}"
  /-- The objects in use are counted, and no others, exactly if all others have a size. -/
  active_iff : summary.active = s!"{kind.used objects}/{objects.length}" ↔
    ∀ d ∈ objects, kind.inUse d = false → kind.sizeOf d ≠ 0
  /-- What can be reclaimed is the size of the objects that are not in use. -/
  reclaimable : kind.unusedSize objects < 2 ^ 63 →
    summary.reclaimable = kind.unusedSize objects

theorem summarizes (report : Document) (kind : UsageKind) :
    Summarizes kind (kind.objects report) ((DiskUsage.ofDocument report).summary kind) := by
  have hactive : ((DiskUsage.ofDocument report).summary kind).active =
      let objects := kind.objects report
      s!"{kind.used objects + kind.empty objects}/{objects.length}" := by
    show (let items := (DiskUsage.ofDocument report).items kind
      s!"{(items.filter Usage.isActive).length}/{items.length}") = _
    simp only [kind.items_ofDocument, kind.length_active, List.length_map]
  refine ⟨hactive, ?_, ?_⟩
  · rw [hactive, written_inj, ← UsageKind.empty_eq_zero_iff]
    omega
  · intro hfits
    let sizes := ((kind.objects report).map kind.entry).map Usage.reclaimable
    have hsum : (sizes.map fun size => max size 0).sum = kind.unusedSize (kind.objects report) :=
      kind.sum_reclaimable _
    calc ((DiskUsage.ofDocument report).summary kind).reclaimable
        = DiskUsage.totalSize sizes := by
          simp only [sizes, ← kind.items_ofDocument]
          rfl
      _ = (sizes.map fun size => max size 0).sum := DiskUsage.totalSize_eq (hsum ▸ hfits)
      _ = kind.unusedSize (kind.objects report) := hsum

theorem summary_mem_ofDiskUsage (usage : DiskUsage) (kind : UsageKind) :
    Row.usage (usage.summary kind) ∈ Row.ofDiskUsage usage := by
  refine List.mem_append_left _ (List.mem_cons_of_mem _ (List.mem_map_of_mem ?_))
  cases kind <;> decide

/-! ## Asking for it -/

namespace Engine

open Exchange Dialogue

/-- A request whose target is not too long is made once, and its answer is read. -/
theorem course_fetch {reader : Document.Reader Document} {asked : Request} {turns : List Turn}
    {answer : Except Failure Document} (hshort : asked.target.utf8ByteSize ≤ maxTarget)
    (h : Dialogue.Course (fetch reader asked) turns answer) :
    ∃ outcome, turns = [.request asked outcome] ∧
      ∀ reply, outcome = .ok reply → answer = reply.document reader := by
  have hsent : ∀ {turns : List Turn} {outcome : Except String Reply},
      Dialogue.Course (liftM (send asked) : Dialogue _) turns (.ok outcome) →
        turns = [.request asked outcome] := by
    intro turns outcome hlift
    rw [send, if_neg (Nat.not_lt.mpr hshort)] at hlift
    obtain ⟨_, hask, hvalue⟩ := course_lift.mp hlift
    cases hvalue
    exact course_ask.mp hask
  -- The request fails, or there is an answer that is read.
  obtain ⟨failure, hasked, rfl⟩ | ⟨reply, first, later, rfl, hasked, hread⟩ := course_bind.mp h
  · obtain ⟨_, hlift, -⟩ | ⟨outcome, first, later, rfl, hlift, hreply⟩ := course_bind.mp hasked
    · obtain ⟨_, -, hnone⟩ := course_lift.mp hlift
      cases hnone
    · obtain rfl := hsent hlift
      cases outcome with
      | ok reply => cases (course_pure.mp hreply).2
      | error reason =>
          obtain ⟨rfl, -⟩ := course_throw.mp hreply
          exact ⟨_, rfl, fun _ hnone => by cases hnone⟩
  · obtain ⟨rfl, rfl⟩ := course_ofExcept.mp hread
    obtain ⟨_, -, hnone⟩ | ⟨outcome, asking, none, rfl, hlift, hreply⟩ := course_bind.mp hasked
    · cases hnone
    · obtain rfl := hsent hlift
      cases outcome with
      | error reason => cases (course_throw.mp hreply).2
      | ok reply' =>
          obtain ⟨rfl, hsame⟩ := course_pure.mp hreply
          cases hsame
          exact ⟨_, rfl, fun _ hgiven => by cases hgiven; rfl⟩

theorem diskUsage_of_reply {script : Script} {reply : Reply} {report : Document}
    (hreply : script.replies.headD script.lastReply = .ok reply)
    (hreport : reply.document Schema.space = .ok report) :
    (diskUsage.run.play script).1 = .ok (DiskUsage.ofDocument report) := by
  obtain ⟨turns, hcourse, hgiven, -⟩ := course_play diskUsage.run script
  obtain ⟨failure, hfetch, hanswer⟩ | ⟨document, first, later, rfl, hfetch, hlater⟩ :=
    course_bind.mp (show Dialogue.Course diskUsage turns _ from hcourse)
  · obtain ⟨outcome, rfl, hread⟩ := course_fetch (by decide +kernel) hfetch
    have hfailed := hread reply (hgiven.1.trans hreply)
    rw [hreport] at hfailed
    cases hfailed
  · obtain ⟨outcome, rfl, hread⟩ := course_fetch (by decide +kernel) hfetch
    have hdocument := hread reply (hgiven.1.trans hreply)
    rw [hreport] at hdocument
    cases hdocument
    exact (course_pure.mp hlater).2

/-- **What is counted as active.** Whatever the daemon reports, the row of each kind in the summary
counts the objects in use together with the unused ones that have no size, out of all objects; and
what it says can be reclaimed is the size of the objects that are not in use. -/
theorem usage_summarized {script : Script} {reply : Reply} {report : Document}
    (hreply : script.replies.headD script.lastReply = .ok reply)
    (hreport : reply.document Schema.space = .ok report) :
    ∃ usage, (diskUsage.run.play script).1 = .ok usage ∧
      ∀ kind : UsageKind, Row.usage (usage.summary kind) ∈ Row.ofDiskUsage usage ∧
        Summarizes kind (kind.objects report) (usage.summary kind) :=
  ⟨DiskUsage.ofDocument report, diskUsage_of_reply hreply hreport, fun kind =>
    ⟨summary_mem_ofDiskUsage _ kind, summarizes report kind⟩⟩

/-- A report of two containers: one has ended and takes up no space, the other one is running. -/
def twoContainers : String :=
  "\x7b\"Containers\":[" ++
    "\x7b\"Id\":\"aaaaaaaaaaaa\",\"Names\":[\"/old\"],\"State\":\"exited\"\x7d," ++
    "\x7b\"Id\":\"bbbbbbbbbbbb\",\"Names\":[\"/web\"],\"State\":\"running\",\"SizeRw\":5\x7d]\x7d"

/-- The report as an answer. -/
def twoReply : Reply := ⟨200, [Text.Utf8.encode twoContainers.toList]⟩

/-- Nothing but the report is answered. -/
def twoScript : Script := ⟨[], [], .ok twoReply, .error ""⟩

/-- Both containers count as active, although only one is in use. -/
theorem usage_summarized_of_two :
    ∃ report, twoScript.replies.headD twoScript.lastReply = .ok twoReply ∧
      twoReply.document Schema.space = .ok report ∧
      UsageKind.containers.used (UsageKind.containers.objects report) = 1 ∧
      ∃ usage, (diskUsage.run.play twoScript).1 = .ok usage ∧
        (usage.summary .containers).active = "2/2" ∧
        (usage.summary .containers).reclaimable = 0 := by
  have hcounts : (twoReply.document Schema.space).toOption.map (fun report =>
      let objects := UsageKind.containers.objects report
      (UsageKind.containers.used objects, UsageKind.containers.empty objects, objects.length,
        UsageKind.containers.unusedSize objects)) = some (1, 1, 2, 0) := by
    decide +kernel
  cases hreport : twoReply.document Schema.space with
  | error failure => rw [hreport] at hcounts; cases hcounts
  | ok report =>
      rw [hreport] at hcounts
      simp only [Except.toOption, Option.map_some, Option.some.injEq, Prod.mk.injEq] at hcounts
      obtain ⟨hused, hempty, hlength, hsize⟩ := hcounts
      have hreply : twoScript.replies.headD twoScript.lastReply = .ok twoReply := rfl
      obtain ⟨usage, hplayed, hkinds⟩ := usage_summarized hreply hreport
      have hsummary := (hkinds .containers).2
      refine ⟨report, hreply, rfl, hused, usage, hplayed, ?_, ?_⟩
      · rw [hsummary.active, hused, hempty, hlength]
        rfl
      · rw [hsummary.reclaimable (by rw [hsize]; decide), hsize]

end Engine

end Dockboard
