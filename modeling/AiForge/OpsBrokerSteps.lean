import AiForge.OpsMailbox
import AiForge.Traces

/-! # What the steps of the broker can do

Every step is one of a few outcomes: it strikes entries out and changes nothing else that
matters, it admits or yields, or it clears the mailbox of the active session. The invariant that
they keep says that every result in the mailbox is valid for the authority that is selected. -/
namespace OpsBroker

open Option Function

open Content Heaps OpsEvidence OpsTarget Traces OpsObservationMailbox Staged OpsBroker.System

def Validated (s : System) (request : OpsObservationRequest) (observation : OpsObservation) :
    Prop :=
  ∃ authority, s.impl.authority = some authority ∧
    (validateOpsObservation authority request observation).isOk

/-- What the owner relies on between two of its sections. -/
def PcSound (s : System) : Prop :=
  match s.pc with
  | .cancelling ticket invocation => ∃ box entry, s.mailbox = some box ∧ ticket ∈ box.entries ∧
      box.objects ticket = some entry ∧ entry.invocation = invocation
  | .taking receipt _ _ _ => s.impl.state = some receipt.issuer
  | .storing ticket observation _ => ∃ box entry, s.mailbox = some box ∧
      box.objects ticket = some entry ∧ Validated s entry.request observation
  | _ => True

structure Sound (s : System) : Prop where
  tidy : ∀ epoch box, s.boxes epoch = some box → box.Tidy
  current : ∀ epoch, s.impl.state = some epoch → epoch = s.impl.epoch
  made : ∀ epoch box, s.boxes epoch = some box →
    s.impl.state = some epoch ∨ epoch < s.impl.epoch
  valid : ∀ box, s.mailbox = some box → ∀ ticket ∈ box.entries, ∀ entry,
    box.objects ticket = some entry → ∀ observation, entry.result = some observation →
      Validated s entry.request observation
  pc : PcSound s

variable {epoch : ℕ}

theorem Sound.made_le {s : System} (hs : Sound s) {box : OpsObservationMailbox}
    (h : s.boxes epoch = some box) : epoch ≤ s.impl.epoch := by
  rcases hs.made epoch box h with hst | hlt
  · exact (hs.current epoch hst).le
  · exact hlt.le

/-- The owner's session stays, and every mailbox does what sections do. -/
structure Moves (s t : System) : Prop where
  state : t.impl.state = s.impl.state
  epoch : t.impl.epoch = s.impl.epoch
  boxes : Related (Evolves (Validated s)) s.boxes t.boxes

/-- The authority stays as well. -/
structure Keeps (s t : System) : Prop extends Moves s t where
  authority : t.impl.authority = s.impl.authority

variable {s t u : System} {box : OpsObservationMailbox}

theorem validated_congr (h : t.impl.authority = s.impl.authority) : Validated t = Validated s := by
  unfold Validated
  rw [h]

theorem Keeps.refl (s : System) : Keeps s s :=
  ⟨⟨rfl, rfl, .refl Evolves.refl _⟩, rfl⟩

theorem Keeps.trans (h : Keeps s t) (k : Keeps t u) : Keeps s u := by
  have hboxes := k.boxes
  rw [validated_congr h.authority] at hboxes
  exact ⟨⟨k.state.trans h.state, k.epoch.trans h.epoch,
    h.boxes.trans (fun _ _ _ => Evolves.trans) hboxes⟩, k.authority.trans h.authority⟩

theorem Moves.origin (h : Moves s t) (hbox : t.mailbox = some box) :
    ∃ before, s.mailbox = some before ∧ Evolves (Validated s) before box := by
  obtain ⟨epoch, hst, hbox⟩ := bind_eq_some_iff.1 hbox
  obtain ⟨before, hpre, hevol⟩ := h.boxes.origin hbox
  exact ⟨before, bind_eq_some_iff.2 ⟨epoch, h.state.symm.trans hst, hpre⟩, hevol⟩

theorem Sound.moves (hs : Sound s) (h : Moves s t)
    (hval : ∀ next, t.mailbox = some next → ∀ ticket ∈ next.entries, ∀ entry,
      next.objects ticket = some entry → ∀ observation, entry.result = some observation →
        Validated t entry.request observation)
    (hpc : PcSound t) : Sound t := by
  refine ⟨?_, ?_, ?_, hval, hpc⟩
  · intro epoch next hnext
    obtain ⟨box, hbox, hevol⟩ := h.boxes.origin hnext
    exact (hs.tidy epoch box hbox).evolves hevol
  · intro epoch hst
    rw [h.epoch]
    exact hs.current epoch (h.state.symm.trans hst)
  · intro epoch next hnext
    obtain ⟨box, hbox, -⟩ := h.boxes.origin hnext
    rw [h.epoch, h.state]
    exact hs.made epoch box hbox

theorem Sound.keeps (hs : Sound s) (h : Keeps s t) (hpc : PcSound t) : Sound t := by
  refine hs.moves h.toMoves ?_ hpc
  intro next hnext ticket hmem entry hent observation hres
  obtain ⟨box, hbox, hevol⟩ := h.origin hnext
  obtain ⟨before, hpre, hkept⟩ := hevol.objects.origin hent
  rw [validated_congr h.authority, hkept.request]
  rcases hkept.result observation hres with hold | hnew
  · exact hs.valid box hbox ticket (hevol.entries.subset hmem) before hpre observation hold
  · exact hnew

def Holds (box next : OpsObservationMailbox) : Prop :=
  ∀ ticket entry, box.objects ticket = some entry →
    ∃ entry', next.objects ticket = some entry' ∧ entry'.invocation = entry.invocation ∧
      entry'.request = entry.request

structure Carries (box next : OpsObservationMailbox) : Prop where
  entries : ∀ ticket ∈ box.entries, ticket ∈ next.entries
  objects : Holds box next

theorem Carries.refl (box : OpsObservationMailbox) : Carries box box :=
  ⟨fun _ h => h, fun _ entry h => ⟨entry, h, rfl, rfl⟩⟩

variable {next : OpsObservationMailbox}

theorem holds_evolves {valid : OpsObservationRequest → OpsObservation → Prop}
    (h : Evolves valid box next) : Holds box next := by
  intro ticket entry hent
  obtain ⟨entry', hent', hkept⟩ := h.objects.found hent
  exact ⟨entry', hent', hkept.invocation, hkept.request⟩

theorem carries_evolves {valid : OpsObservationRequest → OpsObservation → Prop}
    (h : Evolves valid box next) (hents : next.entries = box.entries) : Carries box next := by
  refine ⟨?_, holds_evolves h⟩
  rw [hents]
  exact fun _ hmem => hmem

theorem carries_admits {invocation : InvocationId}
    {request : OpsObservationRequest} (htidy : box.Tidy) (h : box.Admits invocation request next) :
    Carries box next := by
  constructor
  · intro ticket hmem
    rw [h.entries]
    exact List.mem_append_left _ hmem
  · intro ticket entry hent
    refine ⟨entry, ?_, rfl, rfl⟩
    rw [h.objects (htidy.made ticket entry hent)]
    exact hent

/-- The executors and the surroundings leave the owner what it relies on. -/
theorem PcSound.carried (hpc : PcSound s) (hsame : t.pc = s.pc) (himpl : t.impl = s.impl)
    (h : Related Carries s.boxes t.boxes) : PcSound t := by
  have hfnd : ∀ box, s.mailbox = some box → ∃ next, t.mailbox = some next ∧ Carries box next := by
    intro box hbox
    obtain ⟨epoch, hst, hbox⟩ := bind_eq_some_iff.1 hbox
    obtain ⟨next, hnext, hcarry⟩ := h.found hbox
    refine ⟨next, bind_eq_some_iff.2 ⟨epoch, ?_, hnext⟩, hcarry⟩
    rw [himpl]
    exact hst
  unfold PcSound at hpc ⊢
  rw [hsame]
  cases hcase : s.pc with
  | cancelling ticket =>
    rw [hcase] at hpc
    obtain ⟨box, entry, hbox, hmem, hent, hinv⟩ := hpc
    obtain ⟨next, hnext, hcarry⟩ := hfnd box hbox
    obtain ⟨entry', hent', hsame', -⟩ := hcarry.objects ticket entry hent
    exact ⟨next, entry', hnext, hcarry.entries ticket hmem, hent', hsame'.trans hinv⟩
  | taking =>
    rw [hcase] at hpc
    rw [himpl]
    exact hpc
  | storing ticket =>
    rw [hcase] at hpc
    obtain ⟨box, entry, hbox, hent, hval⟩ := hpc
    obtain ⟨next, hnext, hcarry⟩ := hfnd box hbox
    obtain ⟨entry', hent', -, hreq⟩ := hcarry.objects ticket entry hent
    refine ⟨next, entry', hnext, hent', ?_⟩
    rw [validated_congr (congrArg Impl.authority himpl), hreq]
    exact hval
  | _ => trivial

theorem keeps_update {change : OpsObservationMailbox → OpsObservationMailbox}
    (h : ∀ box, s.boxes epoch = some box → Evolves (Validated s) box (change box)) :
    Keeps s (s.update epoch change) :=
  ⟨⟨rfl, rfl, .update Evolves.refl h⟩, rfl⟩

theorem keeps_onState {change : OpsObservationMailbox → OpsObservationMailbox}
    (h : ∀ box, s.mailbox = some box → Evolves (Validated s) box (change box)) :
    Keeps s (s.onState change) := by
  unfold onState
  cases hst : s.impl.state with
  | none => exact Keeps.refl s
  | some =>
    refine keeps_update fun box hbox => h box ?_
    rw [mailbox, hst]
    exact hbox

theorem keeps_goto (pc : OwnerPc) : Keeps s (s.goto pc) :=
  ⟨⟨rfl, rfl, .refl Evolves.refl _⟩, rfl⟩

variable {ticket : ℕ}

/-- A change of an entry that touches neither what it asks for nor its result. -/
theorem keeps_modify {change : Entry → Entry} {pc : OwnerPc}
    (h : ∀ entry, (change entry).invocation = entry.invocation ∧
      (change entry).request = entry.request ∧ (change entry).result = entry.result) :
    Keeps s ((s.onState (·.modify ticket change)).goto pc) := by
  refine Keeps.trans (keeps_onState fun box _ => evolves_modify fun entry _ => ?_) (keeps_goto pc)
  obtain ⟨hinv, hreq, hres⟩ := h entry
  exact .of_result hinv hreq (.inr hres)

theorem keeps_onConsent (change : OpsLogConsentActivation → OpsLogConsentActivation) :
    Keeps s (s.onConsent change) := by
  unfold onConsent
  cases s.impl.state with
  | none => exact Keeps.refl s
  | some => exact ⟨⟨rfl, rfl, .refl Evolves.refl _⟩, rfl⟩

theorem mailbox_onState (change : OpsObservationMailbox → OpsObservationMailbox) :
    (s.onState change).mailbox = s.mailbox.map change := by
  unfold onState mailbox
  cases hst : s.impl.state with
  | none =>
    rw [elim_none, hst]
    rfl
  | some epoch =>
    have hupd : (s.update epoch change).impl.state = some epoch := hst
    rw [elim_some, hupd, bind_some, bind_some]
    exact update_self _ _ _

/-! ### What stays -/

theorem pcSound_idle (h : s.pc = .idle) : PcSound s := by
  unfold PcSound
  rw [h]
  trivial

@[simp] theorem onState_pc (change : OpsObservationMailbox → OpsObservationMailbox) :
    (s.onState change).pc = s.pc := by
  unfold onState
  cases s.impl.state <;> rfl

@[simp] theorem onState_impl (change : OpsObservationMailbox → OpsObservationMailbox) :
    (s.onState change).impl = s.impl := by
  unfold onState
  cases s.impl.state <;> rfl

@[simp] theorem onConsent_pc (change : OpsLogConsentActivation → OpsLogConsentActivation) :
    (s.onConsent change).pc = s.pc := by
  unfold onConsent
  cases s.impl.state <;> rfl

@[simp] theorem onConsent_impl (change : OpsLogConsentActivation → OpsLogConsentActivation) :
    (s.onConsent change).impl = s.impl := by
  unfold onConsent
  cases s.impl.state <;> rfl

theorem onConsent_mailbox (change : OpsLogConsentActivation → OpsLogConsentActivation) :
    (s.onConsent change).mailbox = s.mailbox := by
  unfold onConsent
  cases s.impl.state <;> rfl

/-! ### Service -/

theorem service_keeps (now : Time) (hpc : s.pc = .idle) :
    Keeps s (s.service now).2 ∧ PcSound (s.service now).2 := by
  have hidle := pcSound_idle hpc
  unfold System.service
  split
  · exact ⟨Keeps.refl s, hidle⟩
  · split
    · exact ⟨Keeps.refl s, hidle⟩
    · split
      · exact ⟨keeps_onState fun box _ => evolves_discardAll box _ _,
          pcSound_idle ((onState_pc _).trans hpc)⟩
      · exact ⟨keeps_goto _, trivial⟩

theorem claim_keeps (ticket : ℕ) (loop : ServiceLoop) :
    Keeps s (s.claim ticket loop) ∧ PcSound (s.claim ticket loop) := by
  unfold claim
  split
  · exact ⟨keeps_goto _, trivial⟩
  · split
    · exact ⟨keeps_goto _, trivial⟩
    · split
      · exact ⟨keeps_goto _, trivial⟩
      · exact ⟨keeps_modify fun _ => ⟨rfl, rfl, rfl⟩, trivial⟩

theorem submitEntry_keeps (ticket : ℕ) (loop : ServiceLoop)
    (identity : Except LocalSourceWorkerErrorCode ℕ)
    (submitted : Except LocalSourceWorkerErrorCode Unit) :
    Keeps s (s.submitEntry ticket loop identity submitted) ∧
      PcSound (s.submitEntry ticket loop identity submitted) := by
  unfold submitEntry
  split
  · exact ⟨keeps_goto _, trivial⟩
  · split
    · exact ⟨keeps_goto _, trivial⟩
    · split
      · exact ⟨keeps_modify fun _ => ⟨rfl, rfl, rfl⟩, trivial⟩
      · exact ⟨keeps_modify fun _ => ⟨rfl, rfl, rfl⟩, trivial⟩

theorem poll_keeps (ticket : ℕ) (loop : ServiceLoop) (completed : Except LocalSourceWorkerErrorCode
      (Option (Except OpsObservationSourceError OpsObservation))) :
    Keeps s (s.poll ticket loop completed) ∧ PcSound (s.poll ticket loop completed) := by
  unfold poll
  split
  · exact ⟨keeps_goto _, trivial⟩
  · split
    · exact ⟨keeps_goto _, trivial⟩
    · exact ⟨keeps_goto _, trivial⟩
    · split
      · exact ⟨keeps_modify fun _ => ⟨rfl, rfl, rfl⟩, trivial⟩
      · exact ⟨keeps_modify fun _ => ⟨rfl, rfl, rfl⟩, trivial⟩

theorem checkResult_keeps (ticket : ℕ) (observation : OpsObservation) (loop : ServiceLoop) :
    Keeps s (s.checkResult ticket observation loop) ∧
      PcSound (s.checkResult ticket observation loop) := by
  unfold checkResult
  dsimp only
  split
  · rename_i hval
    refine ⟨keeps_goto _, ?_⟩
    obtain ⟨entry, hent, hval⟩ := (any_eq_true _ _).mp hval
    obtain ⟨box, hbox, hent⟩ := bind_eq_some_iff.mp hent
    obtain ⟨-, hval⟩ := (Bool.and_eq_true _ _).mp hval
    obtain ⟨authority, hauth, hval⟩ := (any_eq_true _ _).mp hval
    exact ⟨box, entry, hbox, hent, authority, hauth, hval⟩
  · exact ⟨keeps_goto _, trivial⟩

theorem storeResult_keeps {observation : OpsObservation} {loop : ServiceLoop}
    (hpc : PcSound s) (hcase : s.pc = .storing ticket observation loop) :
    Keeps s (s.storeResult ticket observation loop) ∧
      PcSound (s.storeResult ticket observation loop) := by
  unfold PcSound at hpc
  rw [hcase] at hpc
  obtain ⟨_, _, hbox, hent, hval⟩ := hpc
  refine ⟨(keeps_onState fun found hfnd => evolves_store fun other hoth => ?_).trans
    (keeps_goto _), trivial⟩
  obtain rfl := some.inj (hbox.symm.trans hfnd)
  obtain rfl := some.inj (hent.symm.trans hoth)
  exact hval

theorem discardEntry_keeps (ticket : ℕ) (error : OpsBrokerFailure)
    (reported : Option OpsBrokerFailure) (loop : ServiceLoop) :
    Keeps s (s.discardEntry ticket error reported loop) ∧
      PcSound (s.discardEntry ticket error reported loop) :=
  ⟨(keeps_onState fun box _ => evolves_discard box _ _).trans (keeps_goto _), trivial⟩

/-- The label tells that the receipt has yielded an observation. -/
def Label.Yields (receipt : OpsObservationReceipt) : Label → Prop
  | .taken other _ _ (.ok _) => other = receipt
  | _ => False

variable {receipt : OpsObservationReceipt}

theorem Label.Yields.exists {x : Label} (h : x.Yields receipt) : ∃ invocation request observation,
      x = .taken receipt invocation request (.ok observation) := by
  unfold Label.Yields at h
  split at h
  · obtain rfl := h
    exact ⟨_, _, _, rfl⟩
  · cases h

def Label.Admits (receipt : OpsObservationReceipt) : Label → Prop
  | .admitted other _ _ => other = receipt
  | _ => False

theorem Label.Admits.exists {x : Label} (h : x.Admits receipt) :
    ∃ invocation request, x = .admitted receipt invocation request := by
  unfold Label.Admits at h
  split at h
  · obtain rfl := h
    exact ⟨_, _, rfl⟩
  · cases h

/-- The label tells that no earlier request for the invocation counts any more. -/
inductive Label.Fences (invocation : InvocationId) : Label → Prop where
  | activated (epoch : ℕ) : Fences invocation (.activated (.ok epoch))
  | selected : Fences invocation (.selected (.ok ()))
  | deactivated : Fences invocation (.deactivated (.ok ()))
  | cancelled : Fences invocation (.cancelled invocation (.ok ()))

/-- Labels of calls that failed, and of those that decide nothing. -/
def Label.Quiet : Label → Prop
  | .admitted _ _ _ | .activated (.ok _) | .selected (.ok _) | .deactivated (.ok _)
  | .cancelled _ (.ok _) | .taken _ _ _ (.ok _) => False
  | _ => True

inductive Outcome (s : System) : List Label → System → Prop where
  | silent {t : System} (h : Keeps s t) (hpc : PcSound t) : Outcome s [] t
  | quiet {x : Label} {t : System} (h : Keeps s t) (hpc : PcSound t) (hx : x.Quiet) :
      Outcome s [x] t
  | admitted {epoch : ℕ} {box next : OpsObservationMailbox} {invocation : InvocationId}
      {request : OpsObservationRequest} (hbox : s.boxes epoch = some box)
      (h : box.Admits invocation request next) :
      Outcome s [.admitted ⟨epoch, next.lastTicket⟩ invocation request] (s.admitted epoch next)
  | yielded {receipt : OpsObservationReceipt} {entry : Entry} {observation : OpsObservation}
      {box : OpsObservationMailbox} {t : System} (h : Keeps s t) (hpc : PcSound t)
      (hstate : s.impl.state = some receipt.issuer) (hbox : s.boxes receipt.issuer = some box)
      (hworking : box.failed = false) (hmem : receipt.ticket ∈ box.entries)
      (hentry : box.objects receipt.ticket = some entry)
      (hresult : entry.result = some observation)
      (hremoved : ∀ next, t.mailbox = some next →
        next.entries = box.entries.erase receipt.ticket) :
      Outcome s [.taken receipt entry.invocation entry.request (.ok observation)] t
  | cancelled {ticket : ℕ} {entry : Entry} {box : OpsObservationMailbox} {t : System}
      (h : Keeps s t) (hpc : PcSound t) (hbox : s.mailbox = some box) (hmem : ticket ∈ box.entries)
      (hentry : box.objects ticket = some entry)
      (hremoved : ∀ next, t.mailbox = some next → next.entries = box.entries.erase ticket) :
      Outcome s [.cancelled entry.invocation (.ok ())] t
  | cleared {x : Label} {t : System} (hx : x = .selected (.ok ()) ∨ x = .deactivated (.ok ()))
      (h : Moves s t) (hpc : PcSound t)
      (hcleared : ∀ next, t.mailbox = some next → next.entries = []) : Outcome s [x] t
  | activated {t middle : System} {session : SessionId} (h : Keeps s middle) (hpc : PcSound t)
      (hstate : t.impl.state = some (s.impl.epoch + 1)) (hepoch : t.impl.epoch = s.impl.epoch + 1)
      (hboxes : t.boxes = Function.update middle.boxes (s.impl.epoch + 1)
        (some { session := session, capacity := s.impl.limits.maximumPending })) :
      Outcome s [.activated (.ok (s.impl.epoch + 1))] t

theorem activate_outcome (session : SessionId) (fault : Bool) (hpc : s.pc = .idle) :
    Outcome s [.activated (s.activateSession session fault).1]
      (s.activateSession session fault).2 := by
  have hidle := pcSound_idle hpc
  have hdisc : Keeps s
      ((s.onConsent OpsLogConsentActivation.revoke).onState (·.discardAll .closed true)) :=
    (keeps_onConsent _).trans (keeps_onState fun box _ => evolves_discardAll box _ _)
  unfold activateSession
  split
  · exact .quiet (Keeps.refl s) hidle trivial
  · split
    · exact .quiet (Keeps.refl s) hidle trivial
    · split
      · exact .quiet (Keeps.refl s) hidle trivial
      · split
        · exact .quiet hdisc (pcSound_idle (by simp [hpc])) trivial
        · simp only [onState_impl, onConsent_impl]
          exact .activated hdisc (pcSound_idle (by simp [hpc])) rfl rfl rfl

theorem select_outcome (authority : OpsObservationAuthority)
    (source : Option OpsObservationSource) (fault : Bool) :
    Outcome s [.selected (s.select authority source fault).1]
      (s.select authority source fault).2 := by
  have hdisc : Keeps s (s.onState (·.discardAll .staleRequest false)) :=
    keeps_onState fun box _ => evolves_discardAll box _ _
  unfold select
  split
  · exact .quiet (hdisc.trans (keeps_goto _)) trivial trivial
  · have hkeeps := hdisc.trans (keeps_onConsent (·.revokeStale authority.specification))
    refine .cleared (.inl rfl) ⟨hkeeps.state, hkeeps.epoch, hkeeps.boxes⟩ trivial ?_
    intro next hnext
    have hmbox : ((s.onState (·.discardAll .staleRequest false)).onConsent
        (·.revokeStale authority.specification)).mailbox = some next := hnext
    rw [onConsent_mailbox, mailbox_onState] at hmbox
    obtain ⟨box, -, rfl⟩ := map_eq_some_iff.1 hmbox
    rfl

theorem deactivate_outcome (h : Keeps s t) (fault : Bool) (hpc : t.pc = .idle) :
    Outcome s [.deactivated (t.deactivateSession fault).1] (t.deactivateSession fault).2 := by
  have hdisc : Keeps s
      ((t.onConsent OpsLogConsentActivation.revoke).onState (·.discardAll .closed true)) :=
    h.trans ((keeps_onConsent _).trans (keeps_onState fun box _ => evolves_discardAll box _ _))
  unfold deactivateSession
  split
  · exact .quiet (hdisc.trans (keeps_goto _)) trivial trivial
  · refine .cleared (.inr rfl) ⟨hdisc.state, hdisc.epoch, hdisc.boxes⟩
      (pcSound_idle (by simp [hpc])) ?_
    intro next hnext
    have hmbox : ((t.onConsent OpsLogConsentActivation.revoke).onState
        (·.discardAll .closed true)).mailbox = some next := hnext
    rw [mailbox_onState] at hmbox
    obtain ⟨box, -, rfl⟩ := map_eq_some_iff.1 hmbox
    rfl

theorem cancelInvocation_found {invocation : InvocationId}
    (h : s.cancelInvocation invocation = .ok ticket) :
    PcSound (s.goto (.cancelling ticket invocation)) := by
  replace h := later h
  obtain ⟨box, hbox, h⟩ := bind_ok.1 h
  have hfnd := require_ok.1 h
  have hany := List.find?_some hfnd
  obtain ⟨entry, hent, hinv⟩ := (any_eq_true _ _).1 hany
  exact ⟨box, entry, require_ok.1 hbox, List.mem_of_find?_eq_some hfnd, hent,
    eq_of_beq hinv⟩

theorem rejection_none {entry : Entry} {now : Time} (h : s.rejection entry now = none)
    (hbox : s.mailbox = some box) : box.failed = false := by
  unfold rejection at h
  split at h
  · cases h
  · split at h
    · cases h
    · split at h
      · cases h
      · rename_i hcur
        simp only [current, hbox, any_some, Bool.not_eq_true', Bool.not_eq_false,
          Bool.and_eq_true] at hcur
        exact hcur.1.2.1

theorem take_outcome (invocation : InvocationId)
    (request : OpsObservationRequest) (now : Time) (hst : s.impl.state = some receipt.issuer) :
    Outcome s [.taken receipt invocation request
        (s.takeForPublication receipt invocation request now).1]
      ((s.takeForPublication receipt invocation request now).2.goto .idle) := by
  have href : ∀ error, Outcome s [.taken receipt invocation request (.error error)]
      (s.goto .idle) := by
    intro error
    exact .quiet (keeps_goto _) trivial trivial
  have hrem : Keeps s ((s.removed receipt.ticket).goto .idle) :=
    (keeps_onState fun box _ => evolves_removed box _).trans (keeps_goto _)
  unfold takeForPublication
  dsimp only
  split
  · exact href _
  · rename_i entry hfnd
    obtain ⟨box, hbox, hfnd⟩ := bind_eq_some_iff.1 hfnd
    obtain ⟨ticket, hticket, hent⟩ := bind_eq_some_iff.1 hfnd
    have hsame := List.find?_some hticket
    obtain rfl := eq_of_beq hsame
    split
    · exact href _
    · rename_i hexp
      obtain ⟨rfl, rfl⟩ := not_or.1 hexp |>.imp not_not.1 not_not.1
      split
      · exact .quiet hrem trivial trivial
      · rename_i hrejection
        split
        · exact href _
        · rename_i observation hres
          have hissue : s.boxes receipt.issuer = some box := by
            rw [mailbox, hst] at hbox
            exact hbox
          refine .yielded hrem trivial hst hissue (rejection_none hrejection hbox)
            (List.mem_of_find?_eq_some hticket) hent hres ?_
          intro next hnext
          have hmbox : (s.removed receipt.ticket).mailbox = some next := hnext
          rw [removed, mailbox_onState, hbox] at hmbox
          cases hmbox
          rfl

theorem begin_outcome (hs : Sound s) (call : OwnerCall) (hpc : s.pc = .idle) :
    Outcome s (s.begin call).1 (s.begin call).2 := by
  cases call with
  | activateSession session fault => exact activate_outcome session fault hpc
  | select =>
    unfold begin
    dsimp only
    split
    · exact .quiet (Keeps.refl s) hs.pc trivial
    · exact .silent (keeps_goto _) trivial
  | deactivateSession fault => exact deactivate_outcome (Keeps.refl s) fault hpc
  | close fault =>
    have hshut : Keeps s { s with impl := { s.impl with closed := true } } :=
      ⟨⟨rfl, rfl, .refl Evolves.refl _⟩, rfl⟩
    exact deactivate_outcome hshut fault hpc
  | cancelInvocation =>
    unfold begin
    dsimp only
    split
    · exact .quiet (Keeps.refl s) hs.pc trivial
    · rename_i ticket hfnd
      exact .silent (keeps_goto _) (cancelInvocation_found hfnd)
  | takeForPublication =>
    unfold begin
    dsimp only
    split
    · exact .quiet (Keeps.refl s) hs.pc trivial
    · rename_i hchk
      replace hchk := later hchk
      obtain ⟨_, -, hchk⟩ := bind_ok.1 hchk
      replace hchk := later hchk
      have hst := ensure_ok.1 hchk
      exact .silent (keeps_goto _) hst
  | service now =>
    obtain ⟨hkeeps, hsound⟩ := service_keeps now hpc
    unfold begin
    dsimp only
    cases (s.service now).1 with
    | none => exact .silent hkeeps hsound
    | some => exact .quiet hkeeps hsound trivial

theorem guarded_outcome (around : Surroundings) {next : System} (h : Keeps s next ∧ PcSound next) :
    Outcome s (s.guarded around next).1 (s.guarded around next).2 := by
  unfold System.guarded
  split
  · exact .silent ((keeps_onState fun box _ => evolves_failClosed box).trans (keeps_goto _)) trivial
  · exact .silent h.1 h.2

theorem advance_outcome (hs : Sound s) (around : Surroundings) :
    Outcome s (s.advance around).1 (s.advance around).2 := by
  have hpc := hs.pc
  unfold advance
  cases hcase : s.pc with
  | idle => exact .silent (Keeps.refl s) hpc
  | selecting authority source => exact select_outcome authority source around.fault
  | cancelling ticket =>
    unfold PcSound at hpc
    rw [hcase] at hpc
    obtain ⟨box, _, hbox, hmem, hent, rfl⟩ := hpc
    refine .cancelled ((keeps_onState fun box _ => evolves_discard box _ _).trans (keeps_goto _))
      trivial hbox hmem hent ?_
    intro next hnext
    have hmbox : (s.onState (·.discard ticket (failure .cancelled))).mailbox = some next := hnext
    rw [mailbox_onState, hbox] at hmbox
    cases hmbox
    rfl
  | taking _ invocation request now =>
    unfold PcSound at hpc
    rw [hcase] at hpc
    exact take_outcome invocation request now hpc
  | failing =>
    exact .silent ((keeps_onState fun box _ => evolves_failClosed box).trans (keeps_goto _)) trivial
  | clearing =>
    exact .quiet ((keeps_onState fun box _ => evolves_discardAll box _ _).trans (keeps_goto _))
      trivial trivial
  | starting => exact guarded_outcome around ⟨keeps_goto _, trivial⟩
  | servicing =>
    dsimp only
    split
    · exact .quiet (keeps_goto _) trivial trivial
    · exact guarded_outcome around (claim_keeps _ _)
  | submitting => exact guarded_outcome around (submitEntry_keeps _ _ _ _)
  | polling => exact guarded_outcome around (poll_keeps _ _ _)
  | checking => exact guarded_outcome around (checkResult_keeps _ _ _)
  | storing => exact guarded_outcome around (storeResult_keeps hpc hcase)
  | discarding =>
    exact guarded_outcome around (discardEntry_keeps _ _ _ _)

variable {labels : List Label}

theorem step_outcome (hs : Sound s) (h : Step s labels t) : Outcome s labels t := by
  cases h with
  | enroll hbox _ hadm => exact .admitted hbox (admission_admits hadm)
  | @answer receipt box now _ hbox =>
    obtain ⟨hevol, hents⟩ := @evolves_answer (Validated s) box s.stopped
      receipt.ticket now
    have hkeeps : Keeps s (s.observed receipt (box.answer s.stopped receipt.ticket now)) :=
      ⟨⟨rfl, rfl, .set Evolves.refl hbox hevol⟩, rfl⟩
    have hcarry := carries_evolves hevol hents
    exact .quiet hkeeps (hs.pc.carried rfl rfl (.set Carries.refl hbox hcarry)) trivial
  | stop token =>
    have hkeeps : Keeps s { s with stopped := update s.stopped token true } :=
      ⟨⟨rfl, rfl, .refl Evolves.refl _⟩, rfl⟩
    exact .silent hkeeps (hs.pc.carried rfl rfl (.refl Carries.refl _))
  | consent epoch activation =>
    have hkeeps : Keeps s { s with consents := update s.consents epoch (some activation) } :=
      ⟨⟨rfl, rfl, .refl Evolves.refl _⟩, rfl⟩
    exact .silent hkeeps (hs.pc.carried rfl rfl (.refl Carries.refl _))
  | latch epoch =>
    have hkeeps : Keeps s (s.update epoch (·.failClosed)) :=
      keeps_update fun box _ => evolves_failClosed box
    refine .silent hkeeps (hs.pc.carried rfl rfl (.update Carries.refl fun box _ => ?_))
    have hevol : Evolves (Validated s) box box.failClosed := evolves_failClosed box
    exact carries_evolves hevol rfl
  | call call hpc => exact begin_outcome hs call hpc
  | advance around => exact advance_outcome hs around

theorem admitted_mailbox (hbox : s.boxes epoch = some box) {found : OpsObservationMailbox}
    (h : (s.admitted epoch next).mailbox = some found) :
    s.mailbox = some found ∨ s.mailbox = some box ∧ found = next := by
  obtain ⟨active, hst, hfnd⟩ := bind_eq_some_iff.1 h
  by_cases heq : active = epoch
  · subst heq
    have hupd : update s.boxes active (some next) active = some found := hfnd
    rw [update_self] at hupd
    exact .inr ⟨bind_eq_some_iff.2 ⟨active, hst, hbox⟩, (some.inj hupd).symm⟩
  · have hupd : update s.boxes epoch (some next) active = some found := hfnd
    rw [update_of_ne heq] at hupd
    exact .inl (bind_eq_some_iff.2 ⟨active, hst, hupd⟩)

theorem activated_mailbox {boxes : ℕ → Option OpsObservationMailbox}
    (hst : t.impl.state = some epoch)
    (hboxes : t.boxes = update boxes epoch (some box)) : t.mailbox = some box := by
  rw [mailbox, hst, bind_some, hboxes]
  exact update_self _ _ _

theorem outcome_sound (hs : Sound s) (h : Outcome s labels t) : Sound t := by
  cases h with
  | silent h hpc | quiet h hpc | yielded h hpc | cancelled h hpc => exact hs.keeps h hpc
  | @admitted epoch box next invocation request hbox h =>
    have htidy := hs.tidy epoch box hbox
    have hboxes : Related Carries s.boxes (s.admitted epoch next).boxes :=
      .set Carries.refl hbox (carries_admits htidy h)
    refine ⟨?_, hs.current, ?_, ?_, hs.pc.carried rfl rfl hboxes⟩
    · intro other found hfnd
      rcases update_cases hfnd with ⟨rfl, rfl⟩ | ⟨-, hfnd⟩
      · exact htidy.admits h
      · exact hs.tidy other found hfnd
    · intro other found hfnd
      rcases update_cases hfnd with ⟨rfl, rfl⟩ | ⟨-, hfnd⟩
      · exact hs.made other box hbox
      · exact hs.made other found hfnd
    · intro found hfnd ticket hmem entry hent observation hres
      rcases admitted_mailbox hbox hfnd with hsame | ⟨hcur, rfl⟩
      · exact hs.valid found hsame ticket hmem entry hent observation hres
      · rw [h.entries] at hmem
        rcases List.mem_append.1 hmem with hold | hnew
        · rw [h.objects (htidy.orderly.given ticket hold)] at hent
          exact hs.valid box hcur ticket hold entry hent observation hres
        · -- what was just admitted has no result
          obtain rfl := List.mem_singleton.1 hnew
          obtain ⟨entered, hentered, -, -, hnone⟩ := h.entered
          obtain rfl := some.inj (hent.symm.trans hentered)
          rw [hnone] at hres
          cases hres
  | cleared _ h hpc hclr =>
    refine hs.moves h ?_ hpc
    intro next hnext ticket hmem
    rw [hclr next hnext] at hmem
    cases hmem
  | @activated _ middle session h hpc hst hep hboxes =>
    refine ⟨?_, ?_, ?_, ?_, hpc⟩
    · intro epoch found hfnd
      rw [hboxes] at hfnd
      rcases update_cases hfnd with ⟨-, rfl⟩ | ⟨-, hfnd⟩
      · exact tidy_empty session _
      · obtain ⟨before, hpre, hevol⟩ := h.boxes.origin hfnd
        exact (hs.tidy epoch before hpre).evolves hevol
    · intro epoch hact
      rw [hep]
      exact some.inj (hact.symm.trans hst)
    · intro epoch found hfnd
      rw [hboxes] at hfnd
      rw [hep]
      rcases update_cases hfnd with ⟨rfl, -⟩ | ⟨-, hfnd⟩
      · exact .inl hst
      · obtain ⟨before, hpre, -⟩ := h.boxes.origin hfnd
        exact .inr (Nat.lt_succ_of_le (hs.made_le hpre))
    · intro found hfnd ticket hmem
      rw [activated_mailbox hst hboxes] at hfnd
      cases hfnd
      cases hmem

theorem create_sound {limits : OpsBrokerLimits} (h : create limits = .ok s) : Sound s := by
  replace h := later h
  cases h
  exact ⟨nofun, nofun, nofun, nofun, trivial⟩

theorem run_sound (hs : Sound s) (h : Trace Step s labels t) : Sound t :=
  h.preserves (fun _ _ _ hs hstep => outcome_sound hs (step_outcome hs hstep)) hs

end OpsBroker
