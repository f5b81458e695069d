import Dockboard.Proofs.Grouping
import Dockboard.Proofs.Swarm.Removal
import Dockboard.Proofs.Text.Blank
import Dockboard.Proofs.Text.Bytes
import Dockboard.Proofs.Text.Numeral
import Mathlib

set_option autoImplicit false

/-! # The stacks of services

Services are listed by one command, and by another one the stacks they belong to. The second listing
has a line for each service, in any order:

    services    abcdef123456   web           lines    0123456789abcdef <no value>
                0123456789ab   job                    abcdef1234567890   shop

As no id by which a service is known begins with another one, a line is about one service
(`knownId?_eq`), so every service gets the label of its own line (`withStacks_eq`). The groups
that are made of the services then are in order. Each service is in one of them: in the group of its
label, or in the last one if it has none (`stacked_ofServices`).

    InGroup service name    the service belongs to the group of that name
    TooFew replicas         fewer replicas run than should
    Stacked services groups the groups of the services, told by their labels
    Inspection              a listing that says of each service which stack it belongs to
-/

namespace Dockboard

open Dockboard.Text

/-! ## Replicas of services -/

/-- The text says how many replicas run and how many should, with a slash between and anything
behind white space, and fewer run. What writes no number of 32 bits counts as none. -/
def TooFew (replicas : List Char) : Prop :=
  ∃ before running desired after, replicas = before ++ (running ++ '/' :: desired) ++ after ∧
    Blank before ∧ (∀ c ∈ running ++ '/' :: desired, isBlank c = false) ∧
    (∀ c ∈ after.head?, isBlank c = true) ∧ '/' ∉ running ∧
    ∃ n, 0 < n ∧ Numeral.Writes 4294967295 desired n ∧
      ∀ m, Numeral.Writes 4294967295 running m → m < n

/-- What is read of the two numbers, where a part that writes none counts as 0. -/
theorem read_lt_iff (running desired : List Char) :
    (Numeral.read? Numeral.max32 running).getD 0 < (Numeral.read? Numeral.max32 desired).getD 0 ↔
      ∃ n, 0 < n ∧ Numeral.Writes 4294967295 desired n ∧
        ∀ m, Numeral.Writes 4294967295 running m → m < n := by
  have hwrites (s : List Char) (n : Nat) :
      Numeral.Writes 4294967295 s n ↔ Numeral.read? Numeral.max32 s = some n :=
    Numeral.read?_eq_some_iff.symm
  simp only [hwrites]
  cases hdesired : Numeral.read? Numeral.max32 desired with
  | none => simp
  | some n =>
      cases Numeral.read? Numeral.max32 running with
      | none => simp
      | some m =>
          constructor
          · intro hlt
            exact ⟨n, Nat.zero_lt_of_lt hlt, rfl, by rintro _ ⟨⟩; exact hlt⟩
          · rintro ⟨_, -, ⟨⟩, hlt⟩
            exact hlt m rfl

/-- **Degraded** services are those with too few replicas. -/
theorem isDegraded_iff (replicas : List Char) : isDegraded replicas = true ↔ TooFew replicas := by
  have hparted {running desired : List Char} (hslash : '/' ∉ running)
      (hword : ∀ c ∈ running ++ '/' :: desired, isBlank c = false)
      (hfirst : firstWord replicas = running ++ '/' :: desired) :
      isDegraded replicas = true ↔ (Numeral.read? Numeral.max32 running).getD 0 <
        (Numeral.read? Numeral.max32 desired).getD 0 := by
    obtain ⟨hrunning, hdesired⟩ := List.forall_mem_append.mp hword
    have hbehind := (List.forall_mem_cons.mp hdesired).2
    simp only [isDegraded, hfirst, splitOnce_append hslash, trim_of_unblank hrunning,
      trim_of_unblank hbehind, decide_eq_true_eq]
  constructor
  · intro h
    obtain ⟨before, after, hreplicas, hbefore, hword, hafter⟩ := exists_firstWord replicas
    by_cases hmem : '/' ∈ firstWord replicas
    · obtain ⟨running, desired, hfirst, hslash⟩ := List.eq_append_cons_of_mem hmem
      rw [hfirst] at hreplicas hword
      exact ⟨before, running, desired, after, hreplicas, hbefore, hword, hafter, hslash,
        (read_lt_iff _ _).mp ((hparted hslash hword hfirst).mp h)⟩
    · simp [isDegraded, splitOnce_eq_none hmem] at h
  · rintro ⟨before, running, desired, after, rfl, hbefore, hword, hafter, hslash, hless⟩
    have hfirst := firstWord_around hbefore hword (by simp) hafter
    exact (hparted hslash hword hfirst).mpr ((read_lt_iff _ _).mpr hless)

instance : DecidablePred TooFew := fun replicas => decidable_of_iff _ (isDegraded_iff replicas)

/-! ## Groups of services -/

namespace Stack

/-- A service belongs to the group that has the name of its label, or to that of the services
without one. -/
def InGroup (service : Service) (name : String) : Prop :=
  if service.stack = "" then name = noStack else name = service.stack

instance (service : Service) (name : String) : Decidable (InGroup service name) := by
  unfold InGroup
  infer_instance

theorem inGroup_iff {service : Service} {name : String} :
    InGroup service name ↔ nameOf service = name := by
  unfold InGroup nameOf
  by_cases hstack : service.stack = ""
  · rw [if_pos hstack, if_pos (String.isEmpty_iff.mpr hstack), eq_comm]
  · rw [if_neg hstack, if_neg (mt String.isEmpty_iff.mp hstack), eq_comm]

theorem nameOf_of_labelled {service : Service} (h : service.stack ≠ "") :
    nameOf service = service.stack := by
  rw [← inGroup_iff, InGroup, if_neg h]

theorem nameOf_of_unlabelled {service : Service} (h : service.stack = "") :
    nameOf service = noStack := by
  rw [← inGroup_iff, InGroup, if_pos h]

theorem nameLe_iff {a b : String} :
    nameLe a b = true ↔ b = noStack ∨ a ≠ noStack ∧ a ≤ b := by
  have hle : (compare a b).isLE = true ↔ a ≤ b := Std.LawfulBCmp.isLE_iff_le
  unfold nameLe
  cases hb : b == noStack with
  | true =>
      have hb := beq_iff_eq.mp hb
      cases ha : a == noStack with
      | true => simp [hb, beq_iff_eq.mp ha, Std.ReflOrd.compare_self]
      | false => exact ⟨fun _ => Or.inl hb, fun _ => rfl⟩
  | false =>
      have hb := beq_eq_false_iff_ne.mp hb
      cases ha : a == noStack with
      | true =>
          constructor
          · intro h
            cases h
          · rintro (h | ⟨h, -⟩)
            · exact absurd h hb
            · exact absurd (beq_iff_eq.mp ha) h
      | false =>
          have ha := beq_eq_false_iff_ne.mp ha
          simp [hb, ha, hle]

/-- The group `a` stands before the group `b`: by name, services without a stack last. -/
def Before (a b : Stack) : Prop := a.name ≠ noStack ∧ (b.name = noStack ∨ a.name < b.name)

/-- The names of the groups, in order. -/
def names (services : List Service) : List String :=
  ((services.map nameOf).eraseDups).mergeSort nameLe

theorem ofServices_eq (services : List Service) :
    ofServices services = (names services).map (gather services) := rfl

theorem mem_names {services : List Service} {name : String} :
    name ∈ names services ↔ ∃ service ∈ services, nameOf service = name := by
  rw [names, List.mem_mergeSort, List.mem_eraseDups, List.mem_map]

theorem nodup_eraseDups (names : List String) : names.eraseDups.Nodup := by
  induction hlength : names.length using Nat.strong_induction_on generalizing names with
  | h length ih =>
  cases names with
  | nil => exact List.nodup_nil
  | cons name names =>
      rw [List.eraseDups_cons, List.nodup_cons]
      constructor
      · simp
      · apply ih _ _ _ rfl
        rw [← hlength]
        exact Nat.lt_succ_of_le (List.length_filter_le _ names)

theorem nodup_names (services : List Service) : (names services).Nodup :=
  (List.mergeSort_perm _ _).nodup_iff.mpr (nodup_eraseDups _)

theorem names_ordered (services : List Service) :
    (names services).Pairwise fun a b => a ≠ noStack ∧ (b = noStack ∨ a < b) := by
  have htrans (a b c : String) (hab : nameLe a b = true) (hbc : nameLe b c = true) :
      nameLe a c = true := by
    rw [nameLe_iff] at hab hbc ⊢
    obtain hc | ⟨hb, hbc⟩ := hbc
    · exact Or.inl hc
    · obtain hb' | ⟨ha, hab⟩ := hab
      · exact absurd hb' hb
      · exact Or.inr ⟨ha, hab.trans hbc⟩
  have htotal (a b : String) : (nameLe a b || nameLe b a) = true := by
    rw [Bool.or_eq_true, nameLe_iff, nameLe_iff]
    by_cases ha : a = noStack
    · exact Or.inr (Or.inl ha)
    · by_cases hb : b = noStack
      · exact Or.inl (Or.inl hb)
      · exact (le_total a b).imp (fun h => Or.inr ⟨ha, h⟩) fun h => Or.inr ⟨hb, h⟩
  have hsorted := List.pairwise_mergeSort htrans htotal (services.map nameOf).eraseDups
  refine (hsorted.and (nodup_names services)).imp ?_
  rintro a b ⟨hle, hne⟩
  obtain rfl | ⟨ha, hab⟩ := nameLe_iff.mp hle
  · exact ⟨hne, Or.inl rfl⟩
  · exact ⟨ha, Or.inr (lt_of_le_of_ne hab hne)⟩

/-- What the groups of services are. -/
structure Stacked (services : List Service) (groups : List Stack) : Prop where
  ordered : groups.Pairwise Before
  nonempty : ∀ group ∈ groups, group.services ≠ []
  /-- A group has the services that belong to it, in the order in which they are listed. -/
  own : ∀ group ∈ groups, group.services =
    (services.filter fun service => InGroup service group.name).map Service.id
  degraded : ∀ group ∈ groups, group.degraded = services.countP fun service =>
    InGroup service group.name ∧ TooFew service.replicas.toList
  labelled : ∀ service ∈ services, service.stack ≠ "" →
    ∃ group ∈ groups, group.name = service.stack ∧ service.id ∈ group.services
  unlabelled : ∀ service ∈ services, service.stack = "" →
    ∃ group ∈ groups.getLast?, group.name = noStack ∧ service.id ∈ group.services
  /-- Each service is in one group. -/
  perm : (groups.flatMap Stack.services).Perm (services.map Service.id)

theorem filter_inGroup (services : List Service) (name : String) :
    (services.filter fun service => InGroup service name) =
      services.filter fun service => nameOf service == name := by
  refine List.filter_congr fun service _ => ?_
  rw [Bool.eq_iff_iff, decide_eq_true_eq, beq_iff_eq]
  exact inGroup_iff

theorem mem_gather {services : List Service} {service : Service} (h : service ∈ services)
    {name : String} (hname : nameOf service = name) :
    service.id ∈ (gather services name).services :=
  List.mem_map_of_mem (List.mem_filter.mpr ⟨h, beq_iff_eq.mpr hname⟩)

/-- The services without a stack are in the last group. -/
theorem getLast?_of_unlabelled {services : List Service} {service : Service}
    (h : service ∈ services) (hstack : service.stack = "") :
    (ofServices services).getLast? = some (gather services noStack) := by
  have hname : noStack ∈ names services :=
    mem_names.mpr ⟨service, h, nameOf_of_unlabelled hstack⟩
  obtain ⟨before, after, hnames⟩ := List.append_of_mem hname
  have hordered := names_ordered services
  rw [hnames] at hordered
  -- No name stands behind that of the group.
  have hnone : after = [] := by
    refine List.eq_nil_iff_forall_not_mem.mpr fun name hafter => ?_
    exact ((List.pairwise_cons.mp (List.pairwise_append.mp hordered).2.1).1 name hafter).1 rfl
  rw [ofServices_eq, List.getLast?_map, hnames, hnone, List.getLast?_concat]
  rfl

/-- **The groups** are told by the labels of the services. -/
theorem stacked_ofServices (services : List Service) : Stacked services (ofServices services) where
  ordered := by
    rw [ofServices_eq]
    exact List.pairwise_map.mpr (names_ordered services)
  nonempty group hgroup := by
    obtain ⟨name, hname, rfl⟩ := List.mem_map.mp hgroup
    obtain ⟨service, hservice, hown⟩ := mem_names.mp hname
    exact List.ne_nil_of_mem (mem_gather hservice hown)
  own group hgroup := by
    obtain ⟨name, -, rfl⟩ := List.mem_map.mp hgroup
    exact congrArg _ (filter_inGroup services name).symm
  degraded group hgroup := by
    obtain ⟨name, -, rfl⟩ := List.mem_map.mp hgroup
    show (List.filter _ (List.filter _ _)).length = _
    rw [List.filter_filter, List.countP_eq_length_filter]
    congr 1
    refine List.filter_congr fun service _ => ?_
    rw [Bool.eq_iff_iff, Bool.and_eq_true, decide_eq_true_eq, beq_iff_eq, isDegraded_iff, and_comm]
    exact and_congr_left' inGroup_iff.symm
  labelled service hservice hstack := by
    have hname := nameOf_of_labelled hstack
    exact ⟨_, List.mem_map_of_mem (mem_names.mpr ⟨service, hservice, hname⟩), rfl,
      mem_gather hservice hname⟩
  unlabelled service hservice hstack :=
    ⟨_, getLast?_of_unlabelled hservice hstack, rfl,
      mem_gather hservice (nameOf_of_unlabelled hstack)⟩
  perm := by
    have hperm := flatMap_filter_perm (nodup_names services) fun service hservice =>
      mem_names.mpr ⟨service, hservice, rfl⟩
    have hids := hperm.map Service.id
    rw [List.map_flatMap] at hids
    rw [ofServices_eq, List.flatMap_map]
    exact hids

/-- A service that is known by an id of its own is in one group only. -/
theorem exists_unique_group {services : List Service} (h : (services.map Service.id).Nodup) :
    ∀ service ∈ services, ∃! group, group ∈ ofServices services ∧ service.id ∈ group.services := by
  intro service hservice
  refine ⟨gather services (nameOf service), ⟨?_, ?_⟩, ?_⟩
  · exact List.mem_map_of_mem (mem_names.mpr ⟨service, hservice, rfl⟩)
  · exact mem_gather hservice rfl
  · rintro group ⟨hgroup, hid⟩
    obtain ⟨name, -, rfl⟩ := List.mem_map.mp hgroup
    obtain ⟨other, hother, hsame⟩ := List.mem_map.mp hid
    obtain ⟨hother, hname⟩ := List.mem_filter.mp hother
    obtain rfl := List.inj_on_of_nodup_map h hother hservice hsame
    rw [beq_iff_eq.mp hname]

end Stack

/-! ## Lines about services -/

namespace Swarm

open Dockboard.Engine Exchange Dialogue

/-- What is said of a service: the id it has in full, and its label, empty if it has none. -/
structure Entry where
  service : Service
  fullId : List Char
  label : List Char

/-- The stack a service is said to belong to, empty if it has no label. -/
def Entry.stack (e : Entry) : String :=
  if e.label = "<no value>".toList then "" else String.ofList e.label

theorem Entry.stack_eq (e : Entry) :
    e.stack = if e.label = noLabel then "" else String.ofList e.label := rfl

/-- A line says what is in an entry. White space may stand around it and between id and label. -/
structure Entry.OnLine (e : Entry) (line : List Char) : Prop where
  known : e.service.id.toList <+: e.fullId
  word : ' ' ∉ e.fullId
  trimmedId : Trimmed e.fullId
  trimmedLabel : Trimmed e.label
  line : ∃ before gap after, Blank before ∧ Blank gap ∧ Blank after ∧
    (e.label ≠ [] → gap.head? = some ' ') ∧
    line = before ++ (e.fullId ++ gap ++ e.label) ++ after

/-- The lines have the entries, one each, and are otherwise blank. -/
inductive Lines : List (List Char) → List Entry → Prop where
  | nil : Lines [] []
  | blank {line : List Char} {lines : List (List Char)} {entries : List Entry}
      (h : Blank line) (more : Lines lines entries) : Lines (line :: lines) entries
  | entry {line : List Char} {lines : List (List Char)} {e : Entry} {entries : List Entry}
      (h : e.OnLine line) (more : Lines lines entries) : Lines (line :: lines) (e :: entries)

/-- Neither of two services is known by an id with which the id of the other one begins. -/
def Apart (a b : Service) : Prop :=
  ¬ a.id.toList <+: b.id.toList ∧ ¬ b.id.toList <+: a.id.toList

instance (a b : Service) : Decidable (Apart a b) := inferInstanceAs (Decidable (_ ∧ _))

instance : Std.Symm Apart := ⟨fun _ _ h => h.symm⟩

/-- The listing has an entry for each service, and the services can be told apart. -/
structure Inspection (services : List Service) (listing : List Char) (entries : List Entry) :
    Prop where
  long : ∀ service ∈ services, 10 ≤ service.id.toList.length
  apart : services.Pairwise Apart
  lines : ∃ lines, listing = List.intercalate ['\n'] lines ∧ (∀ line ∈ lines, '\n' ∉ line) ∧
    Lines lines entries
  each : (entries.map Entry.service).Perm services

theorem length_le_utf8ByteSize (s : String) : s.toList.length ≤ s.utf8ByteSize := by
  rw [← String.utf8Len_toList]
  induction s.toList with
  | nil => exact Nat.zero_le _
  | cons c s ih =>
      have hpos := Char.utf8Size_pos c
      rw [List.length_cons, String.utf8Len_cons]
      omega

/-- What is found on a line is what it says. -/
theorem Entry.OnLine.read {e : Entry} {line : List Char} (h : e.OnLine line)
    (hne : e.fullId ≠ []) :
    trim line ≠ [] ∧
      labelOnLine (trim line) = (e.fullId, if e.label = noLabel then [] else e.label) := by
  obtain ⟨before, gap, after, hbefore, hgap, hafter, hspace, rfl⟩ := h.line
  by_cases hlabel : e.label = []
  · -- Then the gap belongs to the white space behind the id.
    have htrim : trim (before ++ (e.fullId ++ gap ++ e.label) ++ after) = e.fullId := by
      rw [hlabel, List.append_nil, List.append_assoc, List.append_assoc]
      exact trim_around hbefore (hgap.append hafter) h.trimmedId
    have hnone : trim [] = [] := rfl
    rw [htrim]
    refine ⟨hne, ?_⟩
    simp [labelOnLine, splitOnce_eq_none h.word, hlabel, hnone]
  · -- The line is parted at the blank with which the gap begins.
    obtain ⟨gap, rfl⟩ : ∃ more, gap = ' ' :: more := List.head?_eq_some_iff.mp (hspace hlabel)
    have hmore : Blank gap := fun c hc => hgap c (List.mem_cons_of_mem _ hc)
    have htrimmed : Trimmed (e.fullId ++ ' ' :: gap ++ e.label) := by
      constructor
      · rw [List.append_assoc, List.head?_append_of_ne_nil _ hne]
        exact h.trimmedId.1
      · rw [List.getLast?_append_of_ne_nil _ hlabel]
        exact h.trimmedLabel.2
    have htrim : trim (before ++ (e.fullId ++ ' ' :: gap ++ e.label) ++ after) =
        e.fullId ++ ' ' :: (gap ++ e.label) := by
      rw [List.append_assoc before, trim_around hbefore hafter htrimmed, List.append_assoc]
      rfl
    have hbehind : trim (gap ++ e.label) = e.label := by
      have hnil : Blank [] := by simp [Blank]
      simpa using trim_around hmore hnil h.trimmedLabel
    rw [htrim]
    refine ⟨by simp, ?_⟩
    simp [labelOnLine, splitOnce_append h.word, hbehind]

theorem Lines.read {lines : List (List Char)} {entries : List Entry} (h : Lines lines entries)
    (hne : ∀ e ∈ entries, e.fullId ≠ []) :
    ((lines.map trim).filter fun line => !line.isEmpty).map labelOnLine =
      entries.map fun e => (e.fullId, if e.label = noLabel then [] else e.label) := by
  induction h with
  | nil => rfl
  | blank hblank _ ih =>
      rw [List.map_cons, trim_blank hblank, List.filter_cons_of_neg (by simp)]
      exact ih hne
  | entry hline _ ih =>
      obtain ⟨hfirst, hmore⟩ := List.forall_mem_cons.mp hne
      obtain ⟨hfilled, hread⟩ := hline.read hfirst
      rw [List.map_cons, List.filter_cons_of_pos (by simpa using hfilled), List.map_cons, hread,
        ih hmore, List.map_cons]

theorem Lines.onLine {lines : List (List Char)} {entries : List Entry} (h : Lines lines entries) :
    ∀ e ∈ entries, ∃ line, e.OnLine line := by
  induction h with
  | nil => intro e he; cases he
  | blank _ _ ih => exact ih
  | entry hline _ ih => exact List.forall_mem_cons.mpr ⟨⟨_, hline⟩, ih⟩

namespace Inspection

variable {services : List Service} {listing : List Char} {entries : List Entry}

theorem mem_iff (h : Inspection services listing entries) {service : Service} :
    service ∈ services ↔ ∃ e ∈ entries, e.service = service := by
  rw [← h.each.mem_iff, List.mem_map]

theorem known (h : Inspection services listing entries) {e : Entry} (he : e ∈ entries) :
    e.service.id.toList <+: e.fullId := by
  obtain ⟨lines, -, -, hlines⟩ := h.lines
  obtain ⟨line, hline⟩ := hlines.onLine e he
  exact hline.known

/-- Services whose ids begin the same id are the same service. -/
theorem eq_of_prefix (h : Inspection services listing entries) {a b : Service}
    (ha : a ∈ services) (hb : b ∈ services) {id : List Char} (hida : a.id.toList <+: id)
    (hidb : b.id.toList <+: id) : a = b := by
  by_contra hne
  obtain ⟨hab, hba⟩ := h.apart.forall ha hb hne
  cases List.prefix_or_prefix_of_prefix hida hidb with
  | inl hprefix => exact hab hprefix
  | inr hprefix => exact hba hprefix

theorem id_injective (h : Inspection services listing entries) {a b : Service}
    (ha : a ∈ services) (hb : b ∈ services) (hid : a.id = b.id) : a = b :=
  h.eq_of_prefix ha hb (List.prefix_refl _) (hid ▸ List.prefix_refl _)

/-- **A line is about one service**, the one whose id its own begins with. -/
theorem knownId?_eq (h : Inspection services listing entries) {e : Entry} (he : e ∈ entries) :
    knownId? services e.fullId = some e.service.id := by
  have hmem : e.service ∈ services := h.mem_iff.mpr ⟨e, he, rfl⟩
  have hfits : hasFullId e.fullId e.service = true := by
    have hbytes : minIdLength ≤ e.service.id.utf8ByteSize :=
      (h.long _ hmem).trans (length_le_utf8ByteSize e.service.id)
    simpa [hasFullId, hbytes] using h.known he
  -- Some service is found as this one fits, and no other one does.
  obtain ⟨found, hfound⟩ := Option.isSome_iff_exists.mp
    (List.find?_isSome.mpr ⟨e.service, hmem, hfits⟩)
  have hfull := List.find?_some hfound
  have hprefix : found.id.toList <+: e.fullId := by
    simp only [hasFullId, Bool.and_eq_true, List.isPrefixOf_iff_prefix] at hfull
    exact hfull.2
  have hsame := h.eq_of_prefix (List.mem_of_find?_eq_some hfound) hmem hprefix (h.known he)
  rw [knownId?, hfound, hsame]
  rfl

theorem nodup_ids (h : Inspection services listing entries) : (services.map Service.id).Nodup := by
  rw [List.Nodup, List.pairwise_map]
  refine h.apart.imp ?_
  rintro a b hapart hid
  exact hapart.1 (hid ▸ List.prefix_refl _)

/-- No two entries are about one service. -/
theorem entry_injective (h : Inspection services listing entries) {e e' : Entry}
    (he : e ∈ entries) (he' : e' ∈ entries) (heq : e.service = e'.service) : e = e' := by
  have hnodup : services.Nodup := h.nodup_ids.of_map _
  exact List.inj_on_of_nodup_map (h.each.nodup_iff.mpr hnodup) he he' heq

theorem fullId_ne_nil (h : Inspection services listing entries) {e : Entry} (he : e ∈ entries) :
    e.fullId ≠ [] := by
  intro hnil
  have hlong := h.long _ (h.mem_iff.mpr ⟨e, he, rfl⟩)
  have hknown := h.known he
  rw [hnil, List.prefix_nil] at hknown
  rw [hknown] at hlong
  cases hlong

theorem labelOf?_eq (h : Inspection services listing entries) {e : Entry} (he : e ∈ entries) :
    labelOf? services listing e.service.id = some e.stack := by
  obtain ⟨lines, rfl, hbreaks, hlines⟩ := h.lines
  simp only [labelOf?]
  rw [filledLines_intercalate hbreaks, hlines.read fun e he => h.fullId_ne_nil he, List.filter_map,
    List.getLast?_map]
  -- The entry is the only one about its service.
  let own := entries.filter fun e' => knownId? services e'.fullId == some e.service.id
  have hmem : e ∈ own := List.mem_filter.mpr ⟨he, beq_iff_eq.mpr (h.knownId?_eq he)⟩
  have honly : ∀ e' ∈ own, e' = e := by
    intro e' he'
    obtain ⟨hentry, hid⟩ := List.mem_filter.mp he'
    rw [beq_iff_eq, h.knownId?_eq hentry] at hid
    apply h.entry_injective hentry he
    exact h.id_injective (h.mem_iff.mpr ⟨e', hentry, rfl⟩) (h.mem_iff.mpr ⟨e, he, rfl⟩)
      (Option.some.inj hid)
  have hlast : own.getLast? = some e := by
    rw [List.getLast?_eq_some_getLast (List.ne_nil_of_mem hmem), honly _ (List.getLast_mem _)]
  show (own.getLast?.map _).map _ = _
  rw [hlast, Entry.stack_eq]
  split
  next hlabel => simp [hlabel]
  next hlabel => simp [hlabel]

/-- **Every service gets the label of its own line**, and nothing else of it changes. -/
theorem withStacks_eq (h : Inspection services listing entries) :
    List.Forall₂ (fun service labelled => ∃ e ∈ entries, e.service = service ∧
      labelled = { service with stack := e.stack }) services (withStacks services listing) := by
  rw [withStacks, List.forall₂_map_right_iff, List.forall₂_same]
  intro service hservice
  obtain ⟨e, he, rfl⟩ := h.mem_iff.mp hservice
  exact ⟨e, he, rfl, by rw [h.labelOf?_eq he]⟩

end Inspection

/-! ## Asking for services -/

theorem passable_servicesArgs : Passable servicesArgs := by
  unfold Passable servicesArgs
  decide +kernel

/-- A command that can be passed is run once, and what it writes is read. -/
theorem course_list_command {α : Type} {host : Option String}
    {read : List Char → Except JsonFault α} {args : List String} {turns : List Turn}
    {answer : Except Failure (List α)} (hpassable : Passable (addressed host args))
    (h : Dialogue.Course (list host read args) turns answer) :
    ∃ output, turns = [.command (addressed host args) output] ∧
      answer = (outcome args output).bind (readLines read) := by
  obtain ⟨failure, hrun, rfl⟩ | ⟨listing, first, later, rfl, hrun, hread⟩ := course_bind.mp h
  · obtain ⟨-, output, rfl, hfailure⟩ | ⟨hblocked, -⟩ := course_run_command hrun
    · exact ⟨output, rfl, by rw [← hfailure]; rfl⟩
    · exact absurd hpassable hblocked
  · obtain ⟨rfl, rfl⟩ := course_ofExcept.mp hread
    obtain ⟨-, output, rfl, hlisting⟩ | ⟨hblocked, -⟩ := course_run_command hrun
    · exact ⟨output, rfl, by rw [← hlisting]; rfl⟩
    · exact absurd hpassable hblocked

theorem outcome_of_success (args : List String) {output : Output} (h : output.code = 0) :
    outcome args (.ok output) = .ok (Utf8.lossy output.stdout) := by
  rw [outcome, if_pos h]

section Asking

variable {host : Option String} {script : Script} {listed inspected : Output}
variable {more : List (Except String Output)} {services : List Service}

/-- The services are those that the first command lists. -/
theorem listing_answered (houtputs : script.outputs = .ok listed :: .ok inspected :: more)
    (hlisted : listed.code = 0) (hpassable : Passable (addressed host servicesArgs))
    (hservices : readLines Service.read (Utf8.lossy listed.stdout) = .ok services)
    {first later : List Turn} {answer : Except Failure (List Service)}
    (h : Dialogue.Course (list host Service.read servicesArgs) first answer)
    (hgives : script.Gives (first ++ later)) :
    answer = .ok services ∧ ∃ output, first = [.command (addressed host servicesArgs) output] := by
  obtain ⟨output, rfl, rfl⟩ := course_list_command hpassable h
  obtain rfl : output = .ok listed := by simpa [houtputs] using hgives.1
  refine ⟨?_, _, rfl⟩
  rw [outcome_of_success _ hlisted]
  exact hservices

/-- What is said of the services is what the second command writes. -/
theorem inspection_answered (houtputs : script.outputs = .ok listed :: .ok inspected :: more)
    (hinspected : inspected.code = 0) (hpassable : Passable (addressed host (stacksArgs services)))
    {args : List String} {first : Except String Output} {later : List Turn}
    {answer : Except Failure (List Char)}
    (h : Dialogue.Course (run host (stacksArgs services)) later answer)
    (hgives : script.Gives (.command args first :: later)) :
    answer = .ok (Utf8.lossy inspected.stdout) := by
  obtain ⟨-, output, rfl, rfl⟩ | ⟨hblocked, -⟩ := course_run_command h
  · obtain rfl : output = .ok inspected := by simpa [houtputs] using hgives.2.1
    exact outcome_of_success _ hinspected
  · exact absurd hpassable hblocked

/-- Two commands that succeed are all it takes to list services with their stacks. -/
theorem listServices_of_success (houtputs : script.outputs = .ok listed :: .ok inspected :: more)
    (hlisted : listed.code = 0) (hinspected : inspected.code = 0)
    (hpassable : Passable (addressed host (stacksArgs services)))
    (hservices : readLines Service.read (Utf8.lossy listed.stdout) = .ok services) :
    ((listServices host).run.play script).1 =
      .ok (withStacks services (Utf8.lossy inspected.stdout)) := by
  obtain ⟨turns, hcourse, hgiven, -⟩ := course_play (listServices host).run script
  generalize ((listServices host).run.play script).1 = answer at hcourse ⊢
  have hargs : Passable (addressed host servicesArgs) := hpassable.readdress passable_servicesArgs
  cases listing_of_course (show Dialogue.Course (listServices host) turns _ from hcourse) with
  | failed hlist =>
      rw [← List.append_nil turns] at hgiven
      obtain ⟨hanswer, -⟩ := listing_answered houtputs hlisted hargs hservices hlist hgiven
      cases hanswer
  | empty hlist =>
      rw [← List.append_nil turns] at hgiven
      obtain ⟨hanswer, -⟩ := listing_answered houtputs hlisted hargs hservices hlist hgiven
      cases hanswer
      rfl
  | plain hlist hinspect =>
      obtain ⟨hanswer, output, rfl⟩ :=
        listing_answered houtputs hlisted hargs hservices hlist hgiven
      cases hanswer
      cases inspection_answered houtputs hinspected hpassable hinspect hgiven
  | labelled hlist hinspect =>
      obtain ⟨hanswer, output, rfl⟩ :=
        listing_answered houtputs hlisted hargs hservices hlist hgiven
      cases hanswer
      cases inspection_answered houtputs hinspected hpassable hinspect hgiven
      rfl

/-- **Every service is in the stack of its own label.** If both commands succeed and the second
listing has an entry for each service, services are listed in their order, each with the label that
its own entry says and otherwise as they were. They are shown in groups, in the order of their
names. Each service is in one of them, which is that of its label, or the last one if it has none,
and those of a group that have too few replicas are counted. -/
theorem services_stacked {entries : List Entry}
    (houtputs : script.outputs = .ok listed :: .ok inspected :: more)
    (hlisted : listed.code = 0) (hinspected : inspected.code = 0)
    (hpassable : Passable (addressed host (stacksArgs services)))
    (hservices : readLines Service.read (Utf8.lossy listed.stdout) = .ok services)
    (hentries : Inspection services (Utf8.lossy inspected.stdout) entries) :
    ∃ labelled, ((listServices host).run.play script).1 = .ok labelled ∧
      List.Forall₂ (fun service labelled => ∃ e ∈ entries, e.service = service ∧
        labelled = { service with stack := e.stack }) services labelled ∧
      Stack.Stacked labelled (Stack.ofServices labelled) ∧
      ∀ service ∈ labelled, ∃! group, group ∈ Stack.ofServices labelled ∧
        service.id ∈ group.services := by
  refine ⟨_, listServices_of_success houtputs hlisted hinspected hpassable hservices,
    hentries.withStacks_eq, Stack.stacked_ofServices _, ?_⟩
  apply Stack.exists_unique_group
  rw [withStacks_ids]
  exact hentries.nodup_ids

end Asking

/-- What is listed of three services, of which two have too few replicas. -/
def threeListing : List Char :=
  "\x7b\"ID\":\"a234567890\",\"Name\":\"n\",\"Replicas\":\"1/1\"\x7d\n".toList ++
    "\x7b\"ID\":\"b234567890\",\"Name\":\"m\",\"Replicas\":\"0/2 (max 1 per node)\"\x7d\n".toList ++
    "\x7b\"ID\":\"c234567890\",\"Name\":\"k\",\"Replicas\":\"1/3\"\x7d".toList

/-- The services that are listed. -/
def threeServices : List Service :=
  [{ id := "a234567890", name := "n", replicas := "1/1" },
    { id := "b234567890", name := "m", replicas := "0/2 (max 1 per node)" },
    { id := "c234567890", name := "k", replicas := "1/3" }]

/-- The lines about them: in another order, with white space, and two of them without a label. -/
def threeLines : List (List Char) :=
  ["c234567890xy web ".toList, "".toList, "  b234567890z\r".toList,
    "a234567890vw <no value>".toList, []]

/-- What the lines say. -/
def threeEntries : List Entry :=
  [⟨{ id := "c234567890", name := "k", replicas := "1/3" }, "c234567890xy".toList, "web".toList⟩,
    ⟨{ id := "b234567890", name := "m", replicas := "0/2 (max 1 per node)" },
      "b234567890z".toList, []⟩,
    ⟨{ id := "a234567890", name := "n", replicas := "1/1" }, "a234567890vw".toList, noLabel⟩]

/-- What the two commands write. -/
def threeListed : Output := { stdout := Utf8.encode threeListing }

@[inherit_doc threeListed]
def threeInspected : Output := { stdout := Utf8.encode (List.intercalate ['\n'] threeLines) }

/-- Nothing else is asked. -/
def threeScript : Script := ⟨[], [.ok threeListed, .ok threeInspected], .error "", .error ""⟩

theorem inspection_of_three :
    Inspection threeServices (Utf8.lossy threeInspected.stdout) threeEntries where
  long := by decide +kernel
  apart := by decide +kernel
  lines := by
    have hweb : Entry.OnLine ⟨{ id := "c234567890", name := "k", replicas := "1/3" },
        "c234567890xy".toList, "web".toList⟩ "c234567890xy web ".toList :=
      ⟨by decide +kernel, by decide +kernel, by decide +kernel, by decide +kernel,
        [], [' '], [' '], by decide +kernel⟩
    have hmissing : Entry.OnLine
        ⟨{ id := "b234567890", name := "m", replicas := "0/2 (max 1 per node)" },
          "b234567890z".toList, []⟩ "  b234567890z\r".toList :=
      ⟨by decide +kernel, by decide +kernel, by decide +kernel, by decide +kernel,
        [' ', ' '], [], ['\r'], by decide +kernel⟩
    have hnone : Entry.OnLine ⟨{ id := "a234567890", name := "n", replicas := "1/1" },
        "a234567890vw".toList, noLabel⟩ "a234567890vw <no value>".toList :=
      ⟨by decide +kernel, by decide +kernel, by decide +kernel, by decide +kernel,
        [], [' '], [], by decide +kernel⟩
    have hblank : Blank [] := by decide
    exact ⟨threeLines, Utf8.lossy_encode _, by decide +kernel,
      .entry hweb (.blank hblank (.entry hmissing (.entry hnone (.blank hblank .nil))))⟩
  each := by decide +kernel

/-- The services with the labels of their lines. -/
def threeLabelled : List Service :=
  [{ id := "a234567890", name := "n", replicas := "1/1" },
    { id := "b234567890", name := "m", replicas := "0/2 (max 1 per node)" },
    { id := "c234567890", name := "k", replicas := "1/3", stack := "web" }]

theorem services_stacked_of_three :
    readLines Service.read (Utf8.lossy threeListed.stdout) = .ok threeServices ∧
      Inspection threeServices (Utf8.lossy threeInspected.stdout) threeEntries ∧
      ((listServices none).run.play threeScript).1 = .ok threeLabelled ∧
      Stack.Stacked threeLabelled (Stack.ofServices threeLabelled) ∧
      Stack.ofServices threeLabelled =
        [⟨"web", ["c234567890"], 1⟩, ⟨"(no stack)", ["a234567890", "b234567890"], 1⟩] := by
  have hservices : readLines Service.read (Utf8.lossy threeListed.stdout) = .ok threeServices := by
    rw [threeListed, Utf8.lossy_encode]
    decide +kernel
  have houtputs : threeScript.outputs = [.ok threeListed, .ok threeInspected] := rfl
  have hpassable : Passable (addressed none (stacksArgs threeServices)) := by
    unfold Passable
    decide +kernel
  have hlabels : withStacks threeServices (Utf8.lossy threeInspected.stdout) = threeLabelled := by
    rw [threeInspected, Utf8.lossy_encode]
    decide +kernel
  obtain ⟨labelled, hplayed, -, hstacked, -⟩ :=
    services_stacked houtputs rfl rfl hpassable hservices inspection_of_three
  have hlisted := listServices_of_success houtputs rfl rfl hpassable hservices
  rw [hlabels] at hlisted
  obtain rfl : threeLabelled = labelled := Except.ok.inj (hlisted.symm.trans hplayed)
  exact ⟨hservices, inspection_of_three, hplayed, hstacked, by cbv⟩

end Swarm

end Dockboard
