import AiForge.OpsBrokerSteps
import AiForge.OpsLives

/-! # Publication of ops observations

Whatever the executors, the owner and the surroundings do and in whatever order: a receipt
yields at most one observation, which answers what it was admitted for and is valid for the
authority that is selected, and nothing is yielded that was admitted before the last selection,
activation or deactivation, or before it was cancelled. -/
namespace OpsBroker

open Content Dockets Heaps List OpsEvidence OpsHistory OpsObservationMailbox OpsTarget Traces Option

/-- What every mailbox keeps for good. -/
structure Persists (box next : OpsObservationMailbox) : Prop where
  follows : Follows box.docket next.docket
  objects : Holds box next
  failed : box.failed → next.failed

variable {s t : System} {box next : OpsObservationMailbox} {labels : List Label}
  {receipt : OpsObservationReceipt} {invocation : InvocationId} {request : OpsObservationRequest}

theorem persists_evolves {valid : OpsObservationRequest → OpsObservation → Prop}
    (h : Evolves valid box next) : Persists box next :=
  ⟨h.follows, holds_evolves h, h.failed⟩

theorem persists_admits (htidy : box.Tidy) (h : box.Admits invocation request next) :
    Persists box next := by
  refine ⟨?_, (carries_admits htidy h).objects, ?_⟩
  · rw [h.docket]
    exact follows_enter _
  · intro hfail
    rw [h.working.1] at hfail
    cases hfail

variable {epoch : ℕ}

theorem moves_persists (h : Moves s t) (hbox : s.boxes epoch = some box) :
    ∃ next, t.boxes epoch = some next ∧ Persists box next := by
  obtain ⟨next, hnext, hevol⟩ := h.boxes.found hbox
  exact ⟨next, hnext, persists_evolves hevol⟩

theorem outcome_persists (hs : Sound s) (h : Outcome s labels t)
    (hbox : s.boxes epoch = some box) : ∃ next, t.boxes epoch = some next ∧ Persists box next := by
  cases h with
  | silent h | quiet h | yielded h | cancelled h => exact moves_persists h.toMoves hbox
  | cleared _ h => exact moves_persists h hbox
  | @admitted active before after invocation request hpre h =>
    by_cases heq : epoch = active
    · subst heq
      obtain rfl := some.inj (hpre.symm.trans hbox)
      exact ⟨after, Function.update_self _ _ _, persists_admits (hs.tidy epoch _ hbox) h⟩
    · refine ⟨box, (Function.update_of_ne heq _ _).trans hbox, ?_⟩
      have hevol : Evolves (Validated s) box box := Evolves.refl box
      exact persists_evolves hevol
  | activated h _ _ _ hboxes =>
    obtain ⟨next, hnext, hpersists⟩ := moves_persists h.toMoves hbox
    have hle := hs.made_le hbox
    have hne : epoch ≠ s.impl.epoch + 1 := by omega
    refine ⟨next, ?_, hpersists⟩
    rw [hboxes, Function.update_of_ne hne]
    exact hnext

theorem outcome_epoch (h : Outcome s labels t) : s.impl.epoch ≤ t.impl.epoch := by
  cases h with
  | silent h | quiet h | yielded h | cancelled h | cleared _ h => exact h.epoch.ge
  | admitted => exact le_rfl
  | activated _ _ _ hep =>
    rw [hep]
    exact Nat.le_succ _

/-- The mailbox of the receipt holds an entry that asks for the request. -/
def Known (receipt : OpsObservationReceipt) (invocation : InvocationId)
    (request : OpsObservationRequest) (s : System) : Prop :=
  ∃ box entry, s.boxes receipt.issuer = some box ∧ box.objects receipt.ticket = some entry ∧
    entry.invocation = invocation ∧ entry.request = request

/-- The receipt yields nothing any more. -/
def Gone (receipt : OpsObservationReceipt) (s : System) : Prop :=
  receipt.issuer < s.impl.epoch ∨
    ∃ box, s.boxes receipt.issuer = some box ∧ Spent box.docket receipt.ticket

def Latched (epoch : ℕ) (s : System) : Prop :=
  ∃ box, s.boxes epoch = some box ∧ box.failed

section

variable (hs : Sound s) (h : Outcome s labels t)

include hs h

theorem Known.step
    (hknw : Known receipt invocation request s) : Known receipt invocation request t := by
  obtain ⟨_, entry, hbox, hent, rfl, rfl⟩ := hknw
  obtain ⟨next, hnext, hpersists⟩ := outcome_persists hs h hbox
  obtain ⟨entry', hent', hinv, hreq⟩ := hpersists.objects _ entry hent
  exact ⟨next, entry', hnext, hent', hinv, hreq⟩

theorem Gone.step (hgone : Gone receipt s) : Gone receipt t := by
  rcases hgone with hlt | ⟨_, hbox, hspent⟩
  · exact .inl (hlt.trans_le (outcome_epoch h))
  · obtain ⟨next, hnext, hpersists⟩ := outcome_persists hs h hbox
    exact .inr ⟨next, hnext, hspent.follows hpersists.follows⟩

theorem Latched.step (hlatched : Latched epoch s) : Latched epoch t := by
  obtain ⟨_, hbox, hfail⟩ := hlatched
  obtain ⟨next, hnext, hpersists⟩ := outcome_persists hs h hbox
  exact ⟨next, hnext, hpersists.failed hfail⟩

end

theorem moves_known (h : Moves s t) (hknw : Known receipt invocation request t) :
    Known receipt invocation request s := by
  obtain ⟨_, _, hnext, hent, rfl, rfl⟩ := hknw
  obtain ⟨box, hbox, hevol⟩ := h.boxes.origin hnext
  obtain ⟨before, hpre, hkept⟩ := hevol.objects.origin hent
  exact ⟨box, before, hbox, hpre, hkept.invocation.symm, hkept.request.symm⟩

/-- What a mailbox holds was there before or is admitted by the step. -/
theorem known_origin (h : Outcome s labels t) (hknw : Known receipt invocation request t) :
    Known receipt invocation request s ∨ ∃ x ∈ labels, x = .admitted receipt invocation request := by
  cases h with
  | silent h | quiet h | yielded h | cancelled h => exact .inl (moves_known h.toMoves hknw)
  | cleared _ h => exact .inl (moves_known h hknw)
  | @admitted epoch before after invocation' request' hpre h =>
    obtain ⟨found, entry, hfnd, hent, rfl, rfl⟩ := hknw
    rcases update_cases hfnd with ⟨rfl, rfl⟩ | ⟨-, hfnd⟩
    · by_cases hlast : receipt.ticket = found.lastTicket
      · obtain ⟨entered, hentered, rfl, rfl, -⟩ := h.entered
        rw [hlast] at hent
        obtain rfl := some.inj (hentered.symm.trans hent)
        refine .inr ⟨_, mem_singleton_self _, ?_⟩
        rw [← hlast]
      · rw [h.others _ hlast] at hent
        exact .inl ⟨before, entry, hpre, hent, rfl, rfl⟩
    · exact .inl ⟨found, entry, hfnd, hent, rfl, rfl⟩
  | activated h _ _ _ hboxes =>
    obtain ⟨found, entry, hfnd, hent, rfl, rfl⟩ := hknw
    rw [hboxes] at hfnd
    rcases update_cases hfnd with ⟨-, rfl⟩ | ⟨-, hfnd⟩
    · cases hent
    · exact .inl (moves_known h.toMoves ⟨found, entry, hfnd, hent, rfl, rfl⟩)

theorem known_admitted (h : Outcome s labels t) (hx : .admitted receipt invocation request ∈ labels) :
    Known receipt invocation request t ∧
      ∀ box, s.boxes receipt.issuer = some box → ¬ box.failed := by
  cases h with
  | silent => cases hx
  | quiet _ _ hquiet =>
    obtain rfl := mem_singleton.1 hx
    cases hquiet
  | yielded | cancelled | activated => cases mem_singleton.1 hx
  | cleared hclears =>
    obtain rfl := mem_singleton.1 hx
    rcases hclears with h | h
    · cases h
    · cases h
  | admitted hpre h =>
    cases mem_singleton.1 hx
    obtain ⟨entry, hent, hinv, hreq, -⟩ := h.entered
    refine ⟨⟨_, entry, Function.update_self _ _ _, hent, hinv, hreq⟩, ?_⟩
    intro box hbox
    obtain rfl := some.inj (hpre.symm.trans hbox)
    rw [h.working.1]
    exact Bool.false_ne_true

theorem Sound.not_gone (hs : Sound s) (hst : s.impl.state = some receipt.issuer)
    (hbox : s.boxes receipt.issuer = some box) (hmem : receipt.ticket ∈ box.entries) :
    ¬ Gone receipt s := by
  rintro (_ | ⟨_, hfnd, hspent⟩)
  · have hcur := hs.current _ hst
    omega
  · obtain rfl := some.inj (hbox.symm.trans hfnd)
    exact hspent.2 hmem

/-- A ticket that is struck out of the mailbox of the active session is gone. -/
theorem gone_of_erased (h : Keeps s t) (hst : s.impl.state = some receipt.issuer)
    (hbox : s.boxes receipt.issuer = some box) (hle : receipt.ticket ≤ box.lastTicket)
    (herase : ∀ next, t.mailbox = some next → receipt.ticket ∉ next.entries) : Gone receipt t := by
  obtain ⟨next, hnext, hevol⟩ := h.boxes.found hbox
  refine .inr ⟨next, hnext, ?_, herase next ?_⟩
  · have hlast : next.docket.last = box.lastTicket := hevol.lastTicket
    rw [hlast]
    exact hle
  · exact bind_eq_some_iff.2 ⟨receipt.issuer, h.state.trans hst, hnext⟩

/-- What a yield tells about the state before it and after it. -/
structure Yielding (receipt : OpsObservationReceipt) (invocation : InvocationId)
    (request : OpsObservationRequest) (observation : OpsObservation) (s t : System) : Prop where
  known : Known receipt invocation request s
  validated : Validated s request observation
  pending : ¬ Gone receipt s
  working : ¬ Latched receipt.issuer s
  gone : Gone receipt t

theorem outcome_yields {observation : OpsObservation} (hs : Sound s) (h : Outcome s labels t)
    (hx : .taken receipt invocation request (.ok observation) ∈ labels) :
    Yielding receipt invocation request observation s t := by
  cases h with
  | silent => cases hx
  | quiet _ _ hquiet =>
    obtain rfl := mem_singleton.1 hx
    cases hquiet
  | admitted | cancelled | activated => cases mem_singleton.1 hx
  | cleared hclears =>
    obtain rfl := mem_singleton.1 hx
    rcases hclears with h | h
    · cases h
    · cases h
  | @yielded _ entry _ box _ h hpc hst hbox hwork hmem hent hres hrem =>
    cases mem_singleton.1 hx
    have hact : s.mailbox = some box := bind_eq_some_iff.2 ⟨_, hst, hbox⟩
    have htidy := hs.tidy _ box hbox
    refine ⟨⟨box, entry, hbox, hent, rfl, rfl⟩,
      hs.valid box hact _ hmem entry hent _ hres, hs.not_gone hst hbox hmem, ?_, ?_⟩
    · rintro ⟨_, hfnd, hfail⟩
      obtain rfl := some.inj (hbox.symm.trans hfnd)
      rw [hwork] at hfail
      cases hfail
    · refine gone_of_erased h hst hbox (htidy.orderly.given _ hmem) fun next hnext => ?_
      rw [hrem next hnext]
      exact htidy.orderly.nodup.not_mem_erase

theorem fences_gone {x : Label} (hs : Sound s) (h : Outcome s labels t) (hx : x ∈ labels)
    (hfences : x.Fences invocation) (hknw : Known receipt invocation request t) :
    Gone receipt t := by
  have ht := outcome_sound hs h
  obtain ⟨next, entry, hnext, hent, hinv, -⟩ := hknw
  have hle : receipt.ticket ≤ next.lastTicket := (ht.tidy _ next hnext).made _ entry hent
  rcases ht.made _ next hnext with hst | hlt
  · -- the receipt belongs to the active session, whose mailbox was cleared of it
    have hact : t.mailbox = some next := bind_eq_some_iff.2 ⟨_, hst, hnext⟩
    refine .inr ⟨next, hnext, hle, ?_⟩
    cases h with
    | silent => cases hx
    | quiet _ _ hquiet =>
      obtain rfl := mem_singleton.1 hx
      cases hfences <;> cases hquiet
    | admitted | yielded =>
      obtain rfl := mem_singleton.1 hx
      cases hfences
    | cleared _ _ _ hclr =>
      have hemp : next.docket.pending = [] := hclr next hact
      rw [hemp]
      exact not_mem_nil
    | @cancelled ticket found box _ h _ hbox hmem hfnd hrem =>
      obtain rfl := mem_singleton.1 hx
      cases hfences
      obtain ⟨_, hep, hbox⟩ := bind_eq_some_iff.1 hbox
      obtain rfl := some.inj (hst.symm.trans (h.state.trans hep))
      obtain ⟨_, hpre, hevol⟩ := h.boxes.origin hnext
      obtain rfl := some.inj (hbox.symm.trans hpre)
      obtain ⟨_, hold, hkept⟩ := hevol.objects.origin hent
      have htidy := hs.tidy _ box hbox
      intro hpend
      have herase : receipt.ticket ∈ box.entries.erase ticket := by
        rw [← hrem next hact]
        exact hpend
      have heq := htidy.ticket_unique (mem_of_mem_erase herase) hmem hold hfnd
        (hkept.invocation.symm.trans hinv)
      rw [heq] at herase
      exact htidy.orderly.nodup.not_mem_erase herase
    | @activated _ middle session h _ hnew _ hboxes =>
      rw [activated_mailbox hnew hboxes] at hact
      cases hact
      exact not_mem_nil
  · exact .inl hlt

/-- A step from a sound state, seen by what it can do. -/
def Seen (s : System) (labels : List Label) (t : System) : Prop := Sound s ∧ Outcome s labels t

theorem run_seen (hs : Sound s) (h : Trace Step s labels t) : Trace Seen s labels t :=
  (h.within (fun _ _ _ hs hstep => outcome_sound hs (step_outcome hs hstep)) hs).mono
    fun _ _ _ hstep => ⟨hstep.1, step_outcome hstep.1 hstep.2⟩

theorem seen_single (h : Seen s labels t) : labels.length ≤ 1 := by
  cases h.2 with
  | silent => exact Nat.zero_le 1
  | quiet | admitted | yielded | cancelled | cleared | activated => exact le_rfl

/-- What is gone yields nothing more. -/
theorem gone_never (h : Trace Seen s labels t) (hgone : Gone receipt s) :
    ∀ x ∈ labels, ¬ x.Yields receipt := by
  refine h.never (P := Gone receipt) ?_ hgone
  intro a xs b ha hab
  refine ⟨ha.step hab.1 hab.2, ?_⟩
  intro x hx hyields
  obtain ⟨_, _, _, rfl⟩ := hyields.exists
  exact (outcome_yields hab.1 hab.2 hx).pending ha

/-- What is in a mailbox of a run was admitted there. -/
theorem known_announced {limits : OpsBrokerLimits} {start : System}
    (hmake : create limits = .ok start) (h : Trace Step start labels s)
    (hknw : Known receipt invocation request s) :
    .admitted receipt invocation request ∈ labels := by
  have hannounces := (run_seen (create_sound hmake) h).announces
    (K := Known receipt invocation request) (p := (· = .admitted receipt invocation request))
    (fun _ _ _ hstep hk => known_origin hstep.2 hk) hknw
  rcases hannounces with hbeg | ⟨_, hx, rfl⟩
  · replace hmake := Staged.later hmake
    cases hmake
    obtain ⟨_, _, hbox, -⟩ := hbeg
    cases hbox
  · exact hx

/-- Behind a latched mailbox nothing is admitted and nothing is yielded. -/
theorem latched_never (h : Trace Seen s labels t)
    (hlatched : Latched epoch s) : ∀ x ∈ labels, ¬ ∃ receipt : OpsObservationReceipt,
      receipt.issuer = epoch ∧ (x.Admits receipt ∨ x.Yields receipt) := by
  refine h.never (P := Latched epoch) ?_ hlatched
  intro a xs b ha hab
  refine ⟨ha.step hab.1 hab.2, ?_⟩
  rintro x hx ⟨receipt, rfl, hadm | hyields⟩
  · obtain ⟨_, _, rfl⟩ := hadm.exists
    obtain ⟨box, hbox, hfail⟩ := ha
    exact (known_admitted hab.2 hx).2 box hbox hfail
  · obtain ⟨_, _, _, rfl⟩ := hyields.exists
    exact (outcome_yields hab.1 hab.2 hx).working ha

theorem validated_request {authority : OpsObservationAuthority} {observation : OpsObservation}
    (h : (validateOpsObservation authority request observation).isOk) :
    observation.request = request := by
  obtain ⟨_, h⟩ := Staged.isOk_iff.1 h
  unfold validateOpsObservation at h
  split at h
  · obtain ⟨_, henv, -⟩ := Staged.bind_ok.1 h
    unfold envelope at henv
    split at henv
    · cases henv
    · rename_i hsame
      exact not_not.1 hsame
  · cases h

/-- The publication protocol, for every run of a broker that was created. -/
theorem observation_publication {limits : OpsBrokerLimits} {start s : System}
    {labels : List Label} (hcreate : create limits = .ok start) (hrun : Trace Step start labels s) :
    (∀ before x after receipt, labels = before ++ x :: after → x.Yields receipt →
      ∀ y ∈ after, ¬ y.Yields receipt) ∧
    (∀ t receipt invocation request observation,
      Step s [.taken receipt invocation request (.ok observation)] t →
        .admitted receipt invocation request ∈ labels ∧ observation.request = request ∧
        ∃ authority, s.impl.authority = some authority ∧
          (validateOpsObservation authority request observation).isOk) ∧
    (∀ before x after receipt invocation request, labels = before ++ x :: after →
      x.Fences invocation → .admitted receipt invocation request ∈ before →
        ∀ y ∈ after, ¬ y.Yields receipt) ∧
    (∀ epoch box, s.boxes epoch = some box →
      box.pending.length = box.entries.length ∧ box.entries.length ≤ box.capacity ∧
      (box.pending.map Entry.invocation).Nodup ∧
      (box.pending.map fun entry => entry.request.requestId).Nodup) ∧
    (∀ epoch box t later, s.boxes epoch = some box → box.failed →
      Trace Step s later t → ∀ y ∈ later, ∀ receipt : OpsObservationReceipt,
        receipt.issuer = epoch → ¬ y.Admits receipt ∧ ¬ y.Yields receipt) := by
  have hstart := create_sound hcreate
  have hs := run_sound hstart hrun
  have hsplit : ∀ before x after, labels = before ++ x :: after → ∃ t t',
      Trace Seen start before t ∧ Seen t [x] t' ∧ Trace Seen t' after s := by
    rintro before x after rfl
    exact (run_seen hstart hrun).split fun _ _ _ => seen_single
  refine ⟨?_, ?_, ?_, ?_, ?_⟩
  · intro before x after receipt hlabels hyields
    obtain ⟨t, t', -, ⟨ht, hx⟩, hafter⟩ := hsplit before x after hlabels
    obtain ⟨_, _, _, rfl⟩ := hyields.exists
    exact gone_never hafter (outcome_yields ht hx (mem_singleton_self _)).gone
  · intro t receipt invocation request observation hstep
    have hyield := outcome_yields hs (step_outcome hs hstep) (mem_singleton_self _)
    obtain ⟨authority, hauthority, hvalid⟩ := hyield.validated
    refine ⟨?_, validated_request hvalid, authority, hauthority, hvalid⟩
    exact known_announced hcreate hrun hyield.known
  · intro before x after receipt invocation request hlabels hfences hadmitted
    obtain ⟨t, t', hbefore, ⟨ht, hx⟩, hafter⟩ := hsplit before x after hlabels
    have hknown := hbefore.announced
      (K := Known receipt invocation request) (fun _ _ _ h hx => (known_admitted h.2 hx).1)
      (fun _ _ _ hk h => hk.step h.1 h.2) hadmitted
    have hgone := fences_gone ht hx (mem_singleton_self _) hfences (hknown.step ht hx)
    exact gone_never hafter hgone
  · intro epoch box hbox
    have htidy := hs.tidy epoch box hbox
    refine ⟨htidy.pending_length, htidy.bounded, ?_, ?_⟩
    · exact pairwise_map.2 (htidy.apart.imp fun h => h.1)
    · exact pairwise_map.2 (htidy.apart.imp fun h => h.2)
  · intro epoch box t later hbox hfailed hlater y hy receipt hissuer
    have hnever := latched_never (run_seen hs hlater) ⟨box, hbox, hfailed⟩ y hy
    constructor
    · intro hadmits
      exact hnever ⟨receipt, hissuer, .inl hadmits⟩
    · intro hyields
      exact hnever ⟨receipt, hissuer, .inr hyields⟩

/-! ### A sample run

A session is activated, its target is selected and observed once, and what was observed is
taken. -/

def sampleSpec : OpsObservationAuthoritySpec where
  ownerId := "owner"
  sessionId := "session"
  target := sampleTarget
  selectionGeneration := 1
  operations := [.linuxHealth]

def sampleAuthority : OpsObservationAuthority := ⟨sampleSpec, by decide +kernel⟩

def sampleReceipt : OpsObservationReceipt := ⟨1, 1⟩

def sampleStart : System := { impl := { limits := {} } }

def sampleActivated : System := (sampleStart.begin (.activateSession "session" false)).2

def sampleSelecting : System :=
  (sampleActivated.begin (.select sampleAuthority (some ⟨true, sampleTarget⟩))).2

def sampleSelected : System := (sampleSelecting.advance {}).2

def sampleAdmission : Except OpsBrokerFailure OpsObservationMailbox :=
  (sampleSelected.boxes 1).elim (.error {}) (·.admission "observation" sampleRequest 5000000000 0)

def sampleAdmitted : System :=
  match sampleAdmission with
  | .ok box => sampleSelected.admitted 1 box
  | .error _ => sampleSelected

def drive (s : System) (path : List Surroundings) : System :=
  path.foldl (fun s around => (s.advance around).2) s

def sampleServed : System := drive (sampleAdmitted.begin (.service 0)).2
  [{}, {}, { identity := .ok 1 }, { completed := .ok (some (.ok sampleObservation)) }, {}, {}, {}]

def sampleAnswered : System := (sampleServed.boxes 1).elim sampleServed fun box =>
  sampleServed.observed sampleReceipt (box.answer sampleServed.stopped 1 0)

def sampleTaking : System :=
  (sampleAnswered.begin (.takeForPublication sampleReceipt "observation" sampleRequest 0)).2

theorem drive_trace (s : System) (path : List Surroundings) :
    ∃ labels, Trace Step s labels (drive s path) := by
  induction path generalizing s with
  | nil => exact ⟨[], .nil s⟩
  | cons around _ ih =>
    obtain ⟨labels, hrest⟩ := ih (s.advance around).2
    exact ⟨_, .cons (.advance around) hrest⟩

theorem sample_admitted : ∃ labels, Step sampleSelected labels sampleAdmitted := by
  have hok : sampleAdmission.isOk := by decide +kernel
  obtain ⟨next, hnext⟩ := Staged.isOk_iff.1 hok
  have hdeadline : observeDeadline "observation" sampleRequest 0 1000000000000 false =
      .ok 5000000000 := by decide +kernel
  have htgt : sampleAdmitted = sampleSelected.admitted 1 next := by
    rw [sampleAdmitted, hnext]
  rw [htgt]
  unfold sampleAdmission at hnext
  cases hbox : sampleSelected.boxes 1 with
  | none =>
    rw [hbox] at hnext
    cases hnext
  | some =>
    rw [hbox] at hnext
    exact ⟨_, .enroll hbox hdeadline hnext⟩

theorem sample_answered : ∃ labels, Step sampleServed labels sampleAnswered := by
  have hwaiting : sampleReceipt ∈ sampleServed.waiting := by decide +kernel
  have hsome : (sampleServed.boxes 1).isSome := by decide +kernel
  obtain ⟨box, hbox⟩ := isSome_iff_exists.1 hsome
  have htgt : sampleAnswered =
      sampleServed.observed sampleReceipt (box.answer sampleServed.stopped 1 0) := by
    rw [sampleAnswered, hbox]
    rfl
  rw [htgt]
  exact ⟨_, .answer 0 hwaiting hbox⟩

theorem sample_run : ∃ labels, Trace Step sampleStart labels sampleTaking := by
  obtain ⟨_, hadm⟩ := sample_admitted
  obtain ⟨_, hserved⟩ := drive_trace (sampleAdmitted.begin (.service 0)).2
    [{}, {}, { identity := .ok 1 }, { completed := .ok (some (.ok sampleObservation)) }, {}, {}, {}]
  obtain ⟨_, hans⟩ := sample_answered
  have hact : sampleActivated.pc = .idle := by decide +kernel
  have hidle : sampleAdmitted.pc = .idle := by decide +kernel
  have hret : sampleAnswered.pc = .idle := by decide +kernel
  have hrcpt : sampleReceipt ∈ sampleAnswered.receipts := by decide +kernel
  exact ⟨_, .cons (.call (.activateSession "session" false) rfl trivial)
    (.cons (.call (.select sampleAuthority (some ⟨true, sampleTarget⟩)) hact trivial)
      (.cons (.advance {}) (.cons hadm (.cons (.call (.service 0) hidle trivial)
        (hserved.trans (.cons hans (.single (.call
          (.takeForPublication sampleReceipt "observation" sampleRequest 0) hret
            hrcpt))))))))⟩

theorem sample_published : ∃ labels t, Trace Step sampleStart labels sampleTaking ∧
    Step sampleTaking [.taken sampleReceipt "observation" sampleRequest (.ok sampleObservation)] t ∧
    .admitted sampleReceipt "observation" sampleRequest ∈ labels := by
  obtain ⟨labels, hrun⟩ := sample_run
  have hcreate : create {} = .ok sampleStart := rfl
  have htaken : (sampleTaking.advance {}).1 =
      [.taken sampleReceipt "observation" sampleRequest (.ok sampleObservation)] := by
    decide +kernel
  have hstep := Step.advance (s := sampleTaking) {}
  rw [htaken] at hstep
  have hyielded := (observation_publication hcreate hrun).2.1 _ _ _ _ _ hstep
  exact ⟨labels, _, hrun, hstep, hyielded.1⟩

end OpsBroker
