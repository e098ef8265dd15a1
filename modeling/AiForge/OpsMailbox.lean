import AiForge.Docket
import AiForge.Heaps
import AiForge.OpsBroker

/-! # What becomes of a mailbox

A mailbox is a docket of tickets. But for an admission, which gives the next ticket, every
section only strikes tickets out and leaves who asked for what in each entry as it was. -/
namespace OpsBroker

open Content Dockets Heaps List OpsEvidence OpsTarget Staged

/-- Entries that do not ask for the same. -/
def Apart (entry other : Entry) : Prop :=
  entry.invocation ≠ other.invocation ∧ entry.request.requestId ≠ other.request.requestId

namespace OpsObservationMailbox

def docket (box : OpsObservationMailbox) : Docket := ⟨box.lastTicket, box.entries⟩

structure Tidy (box : OpsObservationMailbox) : Prop where
  orderly : Orderly box.docket
  made : ∀ ticket entry, box.objects ticket = some entry → ticket ≤ box.lastTicket
  listed : ∀ ticket ∈ box.entries, ∃ entry, box.objects ticket = some entry
  bounded : box.entries.length ≤ box.capacity
  apart : box.pending.Pairwise Apart

/-- The entry asks for what the other asked for, and has a result only if the other had it or
the result is a valid one. -/
structure EntryKept (valid : OpsObservationRequest → OpsObservation → Prop)
    (entry next : Entry) : Prop where
  invocation : next.invocation = entry.invocation
  request : next.request = entry.request
  result : ∀ observation, next.result = some observation →
    entry.result = some observation ∨ valid entry.request observation

/-- What every section but an admission does to a mailbox. -/
structure Evolves (valid : OpsObservationRequest → OpsObservation → Prop)
    (box next : OpsObservationMailbox) : Prop where
  capacity : next.capacity = box.capacity
  lastTicket : next.lastTicket = box.lastTicket
  failed : box.failed → next.failed
  entries : next.entries.Sublist box.entries
  objects : Related (EntryKept valid) box.objects next.objects

variable {valid : OpsObservationRequest → OpsObservation → Prop}
variable {box next last : OpsObservationMailbox} {entry : Entry} {ticket : ℕ}

theorem EntryKept.refl (entry : Entry) : EntryKept valid entry entry :=
  ⟨rfl, rfl, fun _ h => .inl h⟩

theorem EntryKept.trans {next last : Entry} (h : EntryKept valid entry next)
    (k : EntryKept valid next last) : EntryKept valid entry last := by
  refine ⟨k.invocation.trans h.invocation, k.request.trans h.request, ?_⟩
  intro observation hres
  rcases k.result observation hres with hnext | hval
  · exact h.result observation hnext
  · rw [h.request] at hval
    exact .inr hval

theorem EntryKept.of_result {next : Entry} (hinv : next.invocation = entry.invocation)
    (hreq : next.request = entry.request)
    (hres : next.result = none ∨ next.result = entry.result) : EntryKept valid entry next := by
  refine ⟨hinv, hreq, ?_⟩
  intro observation h
  rcases hres with hnone | hsame
  · rw [hnone] at h
    cases h
  · exact .inl (hsame.symm.trans h)

theorem Evolves.refl (box : OpsObservationMailbox) : Evolves valid box box :=
  ⟨rfl, rfl, id, List.Sublist.refl _, .refl EntryKept.refl _⟩

theorem Evolves.trans (h : Evolves valid box next) (k : Evolves valid next last) :
    Evolves valid box last :=
  ⟨k.capacity.trans h.capacity, k.lastTicket.trans h.lastTicket, k.failed ∘ h.failed,
    k.entries.trans h.entries, h.objects.trans (fun _ _ _ => EntryKept.trans) k.objects⟩

theorem Evolves.follows (h : Evolves valid box next) : Follows box.docket next.docket := by
  have hdocket : next.docket = ⟨box.docket.last, next.entries⟩ :=
    congrArg (Docket.mk · next.entries) h.lastTicket
  rw [hdocket]
  exact follows_sublist h.entries

theorem Tidy.evolves (htidy : box.Tidy) (h : Evolves valid box next) : next.Tidy := by
  constructor
  · rw [docket, h.lastTicket]
    exact htidy.orderly.sublist h.entries
  · intro ticket entry hent
    obtain ⟨before, hpre, -⟩ := h.objects.origin hent
    rw [h.lastTicket]
    exact htidy.made ticket before hpre
  · intro ticket hmem
    obtain ⟨entry, hent⟩ := htidy.listed ticket (h.entries.subset hmem)
    obtain ⟨entry', hent', -⟩ := h.objects.found hent
    exact ⟨entry', hent'⟩
  · rw [h.capacity]
    exact h.entries.length_le.trans htidy.bounded
  · have hpairs := pairwise_filterMap.1 htidy.apart
    refine pairwise_filterMap.2 ((hpairs.sublist h.entries).imp ?_)
    intro first second hapart entry hent other hoth
    obtain ⟨before, hpre, hkept⟩ := h.objects.origin hent
    obtain ⟨before', hpre', hkept'⟩ := h.objects.origin hoth
    rw [Apart, hkept.invocation, hkept.request, hkept'.invocation, hkept'.request]
    exact hapart before hpre before' hpre'

theorem Tidy.pending_length (htidy : box.Tidy) : box.pending.length = box.entries.length := by
  refine filterMap_length_eq_length.2 fun ticket hmem => ?_
  exact Option.isSome_iff_exists.2 (htidy.listed ticket hmem)

/-- Two tickets of one mailbox that ask for the same invocation are one. -/
theorem Tidy.ticket_unique (htidy : box.Tidy) {other : ℕ} {entry' : Entry}
    (ht : ticket ∈ box.entries) (ho : other ∈ box.entries) (he : box.objects ticket = some entry)
    (he' : box.objects other = some entry') (h : entry.invocation = entry'.invocation) :
    ticket = other := by
  by_contra hne
  let Differ (first second : ℕ) : Prop := ∀ entry, box.objects first = some entry →
    ∀ entry', box.objects second = some entry' → entry.invocation ≠ entry'.invocation
  have hpairs : box.entries.Pairwise Differ := (pairwise_filterMap.1 htidy.apart).imp
    fun hapart entry hent entry' hent' => (hapart entry hent entry' hent').1
  have hsymm : Std.Symm Differ := ⟨fun _ _ hdiffer entry hent entry' hent' heq =>
    hdiffer entry' hent' entry hent heq.symm⟩
  exact hpairs.forall ht ho hne entry he entry' he' h

theorem evolves_modify {change : Entry → Entry}
    (h : ∀ entry, box.objects ticket = some entry → EntryKept valid entry (change entry)) :
    Evolves valid box (box.modify ticket change) :=
  ⟨rfl, rfl, id, List.Sublist.refl _, .update EntryKept.refl h⟩

theorem Evolves.erase (h : Evolves valid box next) (ticket : ℕ) :
    Evolves valid box { next with entries := next.entries.erase ticket } :=
  ⟨h.capacity, h.lastTicket, h.failed, erase_sublist.trans h.entries, h.objects⟩

theorem withdraw_kept (error : OpsBrokerFailure) (entry : Entry) :
    EntryKept valid entry (withdraw error entry) := .of_result rfl rfl (.inl rfl)

theorem evolves_discard (box : OpsObservationMailbox) (ticket : ℕ) (error : OpsBrokerFailure) :
    Evolves valid box (box.discard ticket error) :=
  (evolves_modify fun entry _ => withdraw_kept error entry).erase ticket

theorem evolves_discardAll (box : OpsObservationMailbox) (code : OpsBrokerError)
    (closeState : Bool) : Evolves valid box (box.discardAll code closeState) := by
  refine ⟨rfl, rfl, id, nil_sublist _, ?_⟩
  intro ticket
  unfold discardAll
  dsimp only
  split
  · exact related_map fun entry _ => withdraw_kept (failure code) entry
  · exact Related.refl EntryKept.refl box.objects ticket

theorem evolves_failClosed (box : OpsObservationMailbox) : Evolves valid box box.failClosed :=
  ⟨rfl, rfl, fun _ => rfl, List.Sublist.refl _, .refl EntryKept.refl _⟩

theorem evolves_removed (box : OpsObservationMailbox) (ticket : ℕ) :
    Evolves valid box { box with entries := box.entries.erase ticket } :=
  (Evolves.refl box).erase ticket

theorem evolves_answer (box : OpsObservationMailbox) (stopped : StopToken → Bool) (ticket : ℕ)
    (now : Time) : Evolves valid box (box.answer stopped ticket now).2 ∧
      (box.answer stopped ticket now).2.entries = box.entries := by
  unfold answer
  split
  · exact ⟨Evolves.refl box, rfl⟩
  · split
    · exact ⟨Evolves.refl box, rfl⟩
    · split
      · exact ⟨Evolves.refl box, rfl⟩
      · -- only the error of the entry changes
        dsimp only
        split
        all_goals exact ⟨evolves_modify fun entry _ => .of_result rfl rfl (.inr rfl), rfl⟩

theorem evolves_store {observation : OpsObservation}
    (h : ∀ entry, box.objects ticket = some entry → valid entry.request observation) :
    Evolves valid box (box.store ticket observation) := by
  refine evolves_modify fun entry hent => ?_
  by_cases herr : entry.error.isNone
  · rw [if_pos herr]
    refine ⟨rfl, rfl, ?_⟩
    intro stored hsto
    cases hsto
    exact .inr (h entry hent)
  · rw [if_neg herr]
    exact EntryKept.refl entry

structure Admits (box : OpsObservationMailbox) (invocation : InvocationId)
    (request : OpsObservationRequest) (next : OpsObservationMailbox) : Prop where
  working : box.failed = false ∧ next.failed = false
  capacity : next.capacity = box.capacity
  room : box.entries.length < box.capacity
  docket : next.docket = box.docket.enter
  entered : ∃ entry, next.objects next.lastTicket = some entry ∧
    entry.invocation = invocation ∧ entry.request = request ∧ entry.result = none
  others : ∀ ticket, ticket ≠ next.lastTicket → next.objects ticket = box.objects ticket
  fresh : ∀ entry ∈ box.pending,
    entry.invocation ≠ invocation ∧ entry.request.requestId ≠ request.requestId

theorem admission_admits {invocation : InvocationId} {request : OpsObservationRequest}
    {deadline : Time} {stop : StopToken}
    (h : box.admission invocation request deadline stop = .ok next) :
    Admits box invocation request next := by
  obtain ⟨hfail, h⟩ := guarded h
  replace h := later h
  replace h := later h
  obtain ⟨hroom, h⟩ := guarded h
  obtain ⟨hnew, h⟩ := guarded h
  replace h := later h
  cases h
  exact ⟨⟨hfail, hfail⟩, rfl, hroom, rfl,
    ⟨_, Function.update_self _ _ _, rfl, rfl, rfl⟩, fun _ hne => Function.update_of_ne hne _ _,
    hnew⟩

variable {invocation : InvocationId} {request : OpsObservationRequest}

theorem Admits.lastTicket (h : Admits box invocation request next) :
    next.lastTicket = box.lastTicket + 1 := congrArg Docket.last h.docket

theorem Admits.entries (h : Admits box invocation request next) :
    next.entries = box.entries ++ [next.lastTicket] := by
  rw [h.lastTicket]
  exact congrArg Docket.pending h.docket

theorem Admits.objects (h : Admits box invocation request next) (hle : ticket ≤ box.lastTicket) :
    next.objects ticket = box.objects ticket := by
  have hlast := h.lastTicket
  exact h.others ticket (by omega)

theorem Tidy.admits (htidy : box.Tidy) (h : Admits box invocation request next) : next.Tidy := by
  have hpend : ∀ ticket ∈ box.entries, next.objects ticket = box.objects ticket :=
    fun ticket hmem => h.objects (htidy.orderly.given ticket hmem)
  obtain ⟨entry, hent, rfl, rfl, -⟩ := h.entered
  constructor
  · rw [h.docket]
    exact htidy.orderly.enter
  · intro ticket other hoth
    by_cases hlast : ticket = next.lastTicket
    · exact hlast.le
    · rw [h.others ticket hlast] at hoth
      have hle := htidy.made ticket other hoth
      have hnext := h.lastTicket
      omega
  · intro ticket hmem
    rw [h.entries] at hmem
    rcases mem_append.1 hmem with hold | hnew
    · rw [hpend ticket hold]
      exact htidy.listed ticket hold
    · rw [mem_singleton.1 hnew]
      exact ⟨entry, hent⟩
  · rw [h.entries, h.capacity, length_append, length_singleton]
    exact h.room
  · have hsplit : next.pending = box.pending ++ [entry] := by
      rw [pending, h.entries, filterMap_append, filterMap_congr hpend,
        filterMap_cons_some hent, filterMap_nil]
      rfl
    rw [hsplit, pairwise_append]
    refine ⟨htidy.apart, pairwise_singleton _ _, ?_⟩
    intro other hoth last hlast
    obtain rfl := mem_singleton.1 hlast
    exact h.fresh other hoth

theorem tidy_empty (session : SessionId) (capacity : ℕ) :
    Tidy { session := session, capacity := capacity } where
  orderly := ⟨fun _ hmem => absurd hmem not_mem_nil, nodup_nil⟩
  made := by
    intro ticket entry hent
    cases hent
  listed _ hmem := absurd hmem not_mem_nil
  bounded := Nat.zero_le _
  apart := List.Pairwise.nil

end OpsObservationMailbox

end OpsBroker
