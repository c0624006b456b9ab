import Yaog.Controller.Served

/-!
# Every change of the credential is audited exactly once

A run is observed together with what became of each drawn event: whether its transition reached the stored credential.
-/

namespace Yaog.Controller

open Data Durable List Option

variable {pending : PendingKeystoneTransition} {expected : Option OperatorCredential} {next : OperatorCredential}
  {entry : AuditEntry}

/-- The entries of an event that are listed. -/
def Store.entries (store : Store) (eventID : String) : List AuditEntry :=
  store.audit.entries.filter fun entry => entry.eventID = eventID

/-- The entries of an event that were ever appended. -/
def Store.appended (store : Store) (eventID : String) : List AuditEntry :=
  store.audit.history.filter fun entry => entry.eventID = eventID

section

variable {want : AuditEntry} {audit : List AuditEntry}

theorem findAudit_absent {found : Bool} (absent : audit.filter (fun entry => entry.eventID = want.eventID) = []) :
    findAudit want found audit = .ok found := by
  induction audit with
  | nil => rfl
  | cons entry rest ih =>
    rw [filter_cons] at absent
    split at absent
    · cases absent
    · next other => rw [findAudit, if_pos (by simpa using other), ih absent]

theorem findAudit_single (single : audit.filter (fun entry => entry.eventID = want.eventID) = [want]) :
    findAudit want false audit = .ok true := by
  induction audit with
  | nil => cases single
  | cons entry rest ih =>
    rw [filter_cons] at single
    split at single
    · next same =>
      obtain ⟨rfl, none⟩ := List.cons.inj single
      rw [findAudit, if_neg (by simp), if_neg (by simp), if_neg (by simp), findAudit_absent none]
    · next other => rw [findAudit, if_pos (by simpa using other), ih single]

end

section

variable (entropy : Entropy)

/-- `changed` says of every draw whether its transition became the stored credential. A draw without a
marker has its entry exactly if it did; the marker's draw is in between. -/
structure Store.Audited (changed : List Bool) (store : Store) : Prop where
  length : changed.length = store.draws
  closed : ∀ draw became, changed[draw]? = some became →
    (∀ pending, store.keystoneTransition = some pending → pending.audit.eventID ≠ entropy.eventID draw) →
    (store.appended (entropy.eventID draw)).length = if became then 1 else 0
  undrawn : ∀ eventID, eventID ≠ "" → (∀ draw < store.draws, entropy.eventID draw ≠ eventID) →
    store.appended eventID = []
  opened : ∀ pending, store.keystoneTransition = some pending →
    validatePendingKeystoneTransition pending = .ok () ∧
    ∃ draw, pending.audit.eventID = entropy.eventID draw ∧
      (changed[draw]? = some false ∧ store.operatorCred = pending.expected ∧
          store.appended pending.audit.eventID = [] ∨
        changed[draw]? = some true ∧ store.operatorCred = some pending.next ∧
          (store.appended pending.audit.eventID = [] ∨
            store.appended pending.audit.eventID = [pending.audit] ∧
              store.entries pending.audit.eventID = [pending.audit]))

end

section

variable {entropy : Entropy} {changed : List Bool} {store after : Store} {eventID : String} {audit : Option AuditEntry}
  {crypto : Crypto}

theorem Entropy.Distinct.mono {bound draws : Nat} (distinct : entropy.Distinct bound) (less : draws ≤ bound) :
    entropy.Distinct draws :=
  fun first below second above => distinct first (below.trans_le less) second (above.trans_le less)

theorem Entropy.eventID_ne (entropy : Entropy) (draw : Nat) : entropy.eventID draw ≠ "" := by
  intro empty
  have hex := entropy.eventID_hex draw
  rw [empty] at hex
  simp [isEventID] at hex

theorem Store.entries_eq_nil (absent : store.appended eventID = []) :
    store.entries eventID = [] :=
  sublist_nil.mp (absent ▸ store.audit.suffix.sublist.filter _)

theorem entries_eq_singleton {entries : List AuditEntry} {listed : AuditEntry → Bool}
    (few : entries.filter listed <+ [entry]) (member : entry ∈ entries) (kept : listed entry = true) :
    entries.filter listed = [entry] :=
  (sublist_singleton.mp few).resolve_left (ne_nil_of_mem (mem_filter.mpr ⟨member, kept⟩))

theorem Store.entries_of_newest (only : store.appended eventID = [entry])
    (newest : entry ∈ store.audit.history.drop (store.audit.history.length - auditRetain)) :
    store.entries eventID = [entry] := by
  obtain ⟨dropped, whole⟩ := store.audit.suffix
  have few := store.audit.newest
  have member : entry ∈ store.audit.entries := by
    rw [← whole, length_append, drop_append] at newest
    rw [← whole, length_append] at few
    have gone : dropped.drop (dropped.length + store.audit.entries.length - auditRetain) = [] :=
      drop_eq_nil_of_le (by omega)
    rw [gone, nil_append] at newest
    exact mem_of_mem_drop newest
  have named := (mem_filter.mp (only ▸ mem_singleton_self entry : entry ∈ store.appended eventID)).2
  exact entries_eq_singleton (only ▸ store.audit.suffix.sublist.filter _) member named

section

variable (audited : store.Audited entropy changed)

include audited

theorem Store.Audited.aside
    (same : after.draws = store.draws ∧ after.keystoneTransition = store.keystoneTransition ∧
      after.operatorCred = store.operatorCred)
    (log : ∀ eventID, eventID ≠ "" → after.appended eventID = store.appended eventID)
    (listed : store.keystoneTransition = none ∨ after.audit = store.audit) : after.Audited entropy changed := by
  obtain ⟨draws, transition, cred⟩ := same
  have eventLog (draw : Nat) := log _ (entropy.eventID_ne draw)
  constructor
  · exact audited.length.trans draws.symm
  · intro draw became recorded other
    rw [eventLog]
    exact audited.closed draw became recorded (transition ▸ other)
  · intro eventID named fresh
    rw [log eventID named]
    exact audited.undrawn eventID named (draws ▸ fresh)
  · intro pending held
    have still := transition.symm.trans held
    obtain ⟨valid, draw, drawn, state⟩ := audited.opened pending still
    have shown : after.entries pending.audit.eventID = store.entries pending.audit.eventID := by
      rcases listed with settled | same
      · exact nomatch settled.symm.trans still
      · rw [Store.entries, same, Store.entries]
    rw [cred, shown, drawn, eventLog]
    rw [drawn] at state
    exact ⟨valid, draw, rfl, state⟩

theorem Store.Audited.exact (settled : store.keystoneTransition = none)
    {draw : Nat} {became : Bool} (recorded : changed[draw]? = some became) :
    (store.appended (entropy.eventID draw)).length = if became then 1 else 0 := by
  apply audited.closed draw became recorded
  simp [settled]

theorem Store.Audited.drawn_lt
    {draw : Nat} {became : Bool} (recorded : changed[draw]? = some became) : draw < store.draws := by
  rw [← audited.length]
  exact (List.getElem?_eq_some_iff.mp recorded).1

theorem Store.Audited.marked (distinct : entropy.Distinct store.draws)
    (held : store.keystoneTransition = some pending) {draw : Nat} {became : Bool}
    (same : pending.audit.eventID = entropy.eventID draw) (recorded : changed[draw]? = some became) :
    became = false ∧ store.appended (entropy.eventID draw) = [] ∨
      became = true ∧ store.operatorCred = some pending.next ∧
        (store.appended (entropy.eventID draw) = [] ∨ store.appended (entropy.eventID draw) = [pending.audit]) := by
  obtain ⟨-, other, drawn, state⟩ := audited.opened pending held
  have same' : entropy.eventID draw = entropy.eventID other := same.symm.trans drawn
  rw [← same]
  rcases state with ⟨kept, -, none⟩ | ⟨kept, pinned, entries⟩ <;>
    obtain rfl := distinct draw (audited.drawn_lt recorded) other (audited.drawn_lt kept) same'
  · exact .inl ⟨mem_unique recorded kept, none⟩
  · exact .inr ⟨mem_unique recorded kept, pinned, entries.imp_right And.left⟩

theorem Store.Audited.atMost (distinct : entropy.Distinct store.draws)
    {draw : Nat} {became : Bool} (recorded : changed[draw]? = some became) :
    (store.appended (entropy.eventID draw)).length ≤ if became then 1 else 0 := by
  by_cases open_ : ∃ pending, store.keystoneTransition = some pending ∧ pending.audit.eventID = entropy.eventID draw
  · obtain ⟨pending, held, same⟩ := open_
    rcases audited.marked distinct held same recorded with ⟨rfl, none⟩ | ⟨rfl, -, none | one⟩
    · simp [none]
    · simp [none]
    · simp [one]
  · apply le_of_eq
    apply audited.closed draw became recorded
    intro pending held same
    exact open_ ⟨pending, held, same⟩

theorem Store.Audited.close (distinct : entropy.Distinct store.draws) (held : store.keystoneTransition = some pending)
    (written : store.operatorCred = some pending.next → store.appended pending.audit.eventID = [pending.audit]) :
    (store.putTransition none).Audited entropy changed where
  length := audited.length
  closed := by
    intro draw became recorded _
    change (store.appended (entropy.eventID draw)).length = _
    by_cases same : pending.audit.eventID = entropy.eventID draw
    · rcases audited.marked distinct held same recorded with ⟨rfl, none⟩ | ⟨rfl, cred, -⟩
      · rw [none]
        rfl
      · rw [← same, written cred]
        rfl
    · apply audited.closed draw became recorded
      intro other stillHeld
      obtain rfl := mem_unique held stillHeld
      exact same
  undrawn := audited.undrawn
  opened := nofun

omit audited in
theorem Store.appended_appendAudit (entry : AuditEntry) (eventID : String) :
    (store.appendAudit entry).appended eventID =
      store.appended eventID ++ if entry.eventID = eventID then [entry] else [] := by
  simp only [Store.appended, Store.appendAudit, AuditTrail.append, filter_append, filter_cons, filter_nil,
    decide_eq_true_eq]

omit audited in
/-- An append lists its entry, also when it trims the log. -/
theorem Store.entries_appendAudit (entry : AuditEntry) (absent : store.entries entry.eventID = []) :
    (store.appendAudit entry).entries entry.eventID = [entry] := by
  have only : (store.audit.entries ++ [entry]).filter (fun other => other.eventID = entry.eventID) = [entry] := by
    rw [filter_append, show store.audit.entries.filter _ = [] from absent]
    simp
  have member : entry ∈ trimAudit (store.audit.entries ++ [entry]) := by
    unfold trimAudit
    split
    · rw [length_append, drop_append_of_le_length (by simp [auditRetain])]
      exact mem_append_right _ (mem_singleton_self entry)
    · exact mem_append_right _ (mem_singleton_self entry)
  exact entries_eq_singleton (only ▸ (trimAudit_suffix _).sublist.filter _) member (decide_eq_true rfl)

theorem Store.Audited.append (held : store.keystoneTransition = some pending)
    (pinned : store.operatorCred = some pending.next) (absent : store.appended pending.audit.eventID = []) :
    (store.appendAudit pending.audit).Audited entropy changed ∧
      (store.appendAudit pending.audit).appended pending.audit.eventID = [pending.audit] := by
  have appended : (store.appendAudit pending.audit).appended pending.audit.eventID = [pending.audit] := by
    rw [Store.appended_appendAudit, if_pos rfl, absent]
    rfl
  have listed := Store.entries_appendAudit pending.audit (Store.entries_eq_nil absent)
  have apart {eventID : String} (other : pending.audit.eventID ≠ eventID) :
      (store.appendAudit pending.audit).appended eventID = store.appended eventID := by
    rw [Store.appended_appendAudit, if_neg other, append_nil]
  obtain ⟨valid, draw, drawn, state⟩ := audited.opened pending held
  refine ⟨⟨audited.length, ?_, ?_, ?_⟩, appended⟩
  · intro index became recorded other
    rw [apart (other pending held)]
    exact audited.closed index became recorded other
  · intro eventID named fresh
    rcases state with ⟨kept, -, -⟩ | ⟨kept, -, -⟩ <;>
    · rw [apart (drawn ▸ fresh draw (audited.drawn_lt kept))]
      exact audited.undrawn eventID named fresh
  · intro other stillHeld
    obtain rfl := mem_unique held stillHeld
    refine ⟨valid, draw, drawn, ?_⟩
    rcases state with ⟨-, expected, -⟩ | ⟨kept, -, -⟩
    · -- A transition that would change nothing is not valid.
      rw [pinned] at expected
      unfold validatePendingKeystoneTransition at valid
      split_ifs at valid with unnamed unchanged
      exact absurd expected.symm unchanged
    · exact .inr ⟨kept, pinned, .inr ⟨appended, listed⟩⟩

/-- The entry of the marker was appended exactly once, and is listed. -/
structure Store.Noted (pending : PendingKeystoneTransition) (store : Store) : Prop where
  held : store.keystoneTransition = some pending
  appended : store.appended pending.audit.eventID = [pending.audit]
  listed : store.entries pending.audit.eventID = [pending.audit]

theorem ensureAudit_audited (held : store.keystoneTransition = some pending)
    (pinned : store.operatorCred = some pending.next)
    (entries : store.appended pending.audit.eventID = [] ∨ store.appended pending.audit.eventID = [pending.audit] ∧
      store.entries pending.audit.eventID = [pending.audit]) :
    Ensures store (ensureAudit pending.audit) (Store.Audited entropy changed) fun _ after =>
      after.Audited entropy changed ∧ after.Noted pending := by
  apply Ensures.read_bind
  refine .bind ?_
  rcases entries with absent | ⟨recorded, present⟩
  · have unlisted := Store.entries_eq_nil absent
    have search : findPendingKeystoneAudit store pending.audit = .ok false := findAudit_absent unlisted
    obtain ⟨appended, recorded⟩ := audited.append held pinned absent
    have listed := Store.entries_appendAudit pending.audit unlisted
    have again : findPendingKeystoneAudit (store.appendAudit pending.audit) pending.audit = .ok true :=
      findAudit_single listed
    rw [search]
    apply Ensures.pure
    refine .bind ?_
    -- A refused append is noticed; an append that took effect is found whatever it reported.
    have noticed {last : Store} {found reported : Bool} (kept : last.Audited entropy changed)
        (seen : findPendingKeystoneAudit last pending.audit = .ok found)
        (noted : found = true → last.Noted pending) : Ensures last (do
        let current ← read
        let found ← lift (findPendingKeystoneAudit current pending.audit)
        require (found = true) (if reported then KeystoneError.auditNotObservable else .auditAppend))
        (Store.Audited entropy changed) fun _ after => after.Audited entropy changed ∧ after.Noted pending := by
      apply Ensures.read_bind
      refine .bind ?_
      rw [seen]
      apply Ensures.pure
      exact .require (fun _ => kept) fun ok => ⟨kept, noted ok⟩
    have applied {reported : Bool} := @noticed _ _ reported appended again fun _ => ⟨held, recorded, listed⟩
    exact .attempt audited (noticed audited search Bool.noConfusion) applied applied
  · have search : findPendingKeystoneAudit store pending.audit = .ok true := findAudit_single present
    rw [search]
    apply Ensures.pure
    exact .pure ⟨audited, held, recorded, present⟩

theorem deletePending_audited (distinct : entropy.Distinct store.draws) (held : store.keystoneTransition = some pending)
    (written : store.operatorCred = some pending.next → store.appended pending.audit.eventID = [pending.audit]) :
    Ensures store (deletePendingKeystoneTransition pending.audit.eventID)
      (Store.Audited entropy changed) fun _ after =>
        after.Audited entropy changed ∧ after.keystoneTransition = none ∧ after.audit = store.audit := by
  have cleared := audited.close distinct held written
  apply Ensures.require_bind (fun _ => audited)
  intro _
  apply Ensures.read_bind
  rw [held]
  apply Ensures.require_bind (fun _ => audited)
  exact fun _ => .write audited cleared ⟨cleared, rfl, rfl⟩

theorem reconcile_audited (distinct : entropy.Distinct store.draws) :
    Ensures store reconcilePendingKeystoneTransition
      (fun after => Reconciled store after ∧ after.Audited entropy changed) fun _ after =>
        Reconciled store after ∧ after.Audited entropy changed ∧ after.keystoneTransition = none ∧
          ∀ pending, store.keystoneTransition = some pending → store.operatorCred = some pending.next →
            after.entries pending.audit.eventID = [pending.audit] := by
  apply reconcile_frames.and
  apply Ensures.read_bind
  cases held : store.keystoneTransition with
  | none => exact .pure ⟨audited, held, nofun⟩
  | some pending =>
    obtain ⟨valid, draw, drawn, state⟩ := audited.opened pending held
    apply Ensures.lift_bind (fun _ _ => audited)
    intro _ _
    split
    · next pinned =>
      have entries : store.appended pending.audit.eventID = [] ∨
          store.appended pending.audit.eventID = [pending.audit] ∧
            store.entries pending.audit.eventID = [pending.audit] := by
        rcases state with ⟨-, -, none⟩ | ⟨-, -, entries⟩
        · exact .inl none
        · exact entries
      refine .bind ?_
      apply ((ensureAudit_audited audited held pinned entries).and ensureAudit_frames).mono
        (fun _ stopped => stopped.1)
      rintro _ after ⟨⟨recorded, noted⟩, transition, audit, rfl⟩
      refine (deletePending_audited recorded distinct noted.held fun _ => noted.appended).weaken ?_
      rintro _ last ⟨kept, settled, same⟩
      refine ⟨kept, settled, fun other stillHeld _ => ?_⟩
      cases stillHeld
      rw [Store.entries, same]
      exact noted.listed
    · next unpinned =>
      split
      · refine (deletePending_audited audited distinct held fun pinned => absurd pinned unpinned).weaken ?_
        rintro _ last ⟨kept, settled, -⟩
        refine ⟨kept, settled, fun other stillHeld pinned => ?_⟩
        cases stillHeld
        exact absurd pinned unpinned
      · exact .fail audited

theorem Store.Audited.draw (settled : store.keystoneTransition = none) (distinct : entropy.Distinct (store.draws + 1)) :
    ({ store with draws := store.draws + 1 } : Store).Audited entropy (changed ++ [false]) where
  length := by simp [audited.length]
  closed := by
    intro draw became recorded _
    change (store.appended (entropy.eventID draw)).length = _
    by_cases old : draw < changed.length
    · rw [getElem?_append_left old] at recorded
      exact audited.exact settled recorded
    · obtain ⟨bound, -⟩ := List.getElem?_eq_some_iff.mp recorded
      obtain rfl : draw = store.draws := by
        have := audited.length
        simp only [length_append, length_singleton] at bound
        omega
      have fresh : ∀ earlier < store.draws, entropy.eventID earlier ≠ entropy.eventID store.draws := by
        intro earlier before same
        have := distinct earlier (Nat.lt_succ_of_lt before) store.draws (Nat.lt_succ_self _) same
        omega
      rw [← audited.length, getElem?_concat_length] at recorded
      cases recorded
      rw [audited.undrawn _ (entropy.eventID_ne _) fresh]
      rfl
  undrawn := by
    intro eventID named fresh
    exact audited.undrawn eventID named fun draw before => fresh draw (Nat.lt_succ_of_lt before)
  opened := by
    intro pending held
    exact absurd (settled.symm.trans held) (by simp)

end

theorem Store.Audited.announce (audited : store.Audited entropy (changed ++ [false]))
    (settled : store.keystoneTransition = none)
    (valid : validatePendingKeystoneTransition pending = .ok ())
    (drawn : pending.audit.eventID = entropy.eventID changed.length)
    (expected : store.operatorCred = pending.expected) :
    (store.putTransition (some pending)).Audited entropy (changed ++ [false]) where
  length := audited.length
  closed := fun _ _ recorded _ => audited.exact settled recorded
  undrawn := audited.undrawn
  opened := by
    intro other held
    cases held
    have none := audited.exact settled getElem?_concat_length
    refine ⟨valid, changed.length, drawn, .inl ⟨getElem?_concat_length, expected, ?_⟩⟩
    rw [drawn]
    exact length_eq_zero_iff.mp none

theorem Store.Audited.become (audited : store.Audited entropy (changed ++ [false]))
    (held : store.keystoneTransition = some pending) (drawn : pending.audit.eventID = entropy.eventID changed.length)
    (absent : store.appended pending.audit.eventID = []) :
    (store.putCredential pending.next).Audited entropy (changed ++ [true]) where
  length := by
    have counted := audited.length
    rw [length_append] at counted ⊢
    exact counted
  closed := by
    intro draw became recorded other
    have older : draw < changed.length := by
      obtain ⟨bound, -⟩ := List.getElem?_eq_some_iff.mp recorded
      simp only [length_append, length_singleton] at bound
      rcases Nat.lt_succ_iff_lt_or_eq.mp bound with less | same
      · exact less
      · exact absurd (same ▸ drawn) (other pending held)
    rw [getElem?_append_left older] at recorded
    exact audited.closed draw became (by rw [getElem?_append_left older, recorded]) other
  undrawn := audited.undrawn
  opened := by
    intro other stillHeld
    obtain rfl := mem_unique held stillHeld
    exact ⟨(audited.opened pending held).1, changed.length, drawn, .inr ⟨getElem?_concat_length, rfl, .inl absent⟩⟩

theorem pendingTransition_valid (draw : Nat) (changes : expected ≠ some next)
    (asked : validateKeystoneTransitionAudit expected audit = .ok entry) :
    validatePendingKeystoneTransition (pendingTransition entropy expected next entry draw) = .ok () := by
  cases audit with
  | none => cases asked
  | some given =>
    simp only [validateKeystoneTransitionAudit] at asked
    split_ifs at asked with action actor reserved
    obtain rfl := Except.ok.inj asked
    simp only [not_or, not_not] at reserved
    have operator : namesOperator given.actor = true := by simpa using actor
    simp [validatePendingKeystoneTransition, pendingTransition, entropy.eventID_hex,
      Nat.ne_of_gt (entropy.now_pos draw), changes, not_not.mp action, operator, reserved.2.2]

def observed (changed : List Bool) (before after : Store) : List Bool :=
  if after.draws = before.draws then changed
  else changed ++ [decide (after.operatorCred ≠ before.operatorCred)]

/-- The record of a store after a call on `before`. -/
def Tracked (entropy : Entropy) (changed : List Bool) (before after : Store) : Prop :=
  after.Audited entropy (observed changed before after)

theorem Tracked.same (audited : after.Audited entropy changed) (draws : after.draws = store.draws) :
    Tracked entropy changed store after := by
  rw [Tracked, observed, if_pos draws]
  exact audited

theorem Tracked.kept (audited : after.Audited entropy (changed ++ [false]))
    (draws : after.draws = store.draws + 1) (cred : after.operatorCred = store.operatorCred) :
    Tracked entropy changed store after := by
  rw [Tracked, observed, if_neg (by omega), decide_eq_false (not_not.mpr cred)]
  exact audited

theorem Tracked.became (audited : after.Audited entropy (changed ++ [true]))
    (draws : after.draws = store.draws + 1) (cred : after.operatorCred ≠ store.operatorCred) :
    Tracked entropy changed store after := by
  rw [Tracked, observed, if_neg (by omega), decide_eq_true cred]
  exact audited

theorem Store.Audited.transition (kept : store.Audited entropy changed) (settled : store.keystoneTransition = none)
    (distinct : entropy.Distinct (store.draws + 1)) (changes : expected ≠ some next)
    (asked : validateKeystoneTransitionAudit expected audit = .ok entry) (met : store.operatorCred = expected) :
    let pending := pendingTransition entropy expected next entry store.draws
    let drew : Store := { store with draws := store.draws + 1 }
    drew.Audited entropy (changed ++ [false]) ∧
      (drew.putTransition (some pending)).Audited entropy (changed ++ [false]) ∧
      ((drew.putTransition (some pending)).putCredential next).Audited entropy (changed ++ [true]) := by
  intro pending drew
  have valid : validatePendingKeystoneTransition pending = .ok () := pendingTransition_valid _ changes asked
  have drawn : pending.audit.eventID = entropy.eventID changed.length := by
    rw [kept.length]
    rfl
  have drewAudited : drew.Audited entropy (changed ++ [false]) := kept.draw settled distinct
  have announced : (drew.putTransition (some pending)).Audited entropy (changed ++ [false]) :=
    drewAudited.announce settled valid drawn met
  have absent : (drew.putTransition (some pending)).appended pending.audit.eventID = [] := by
    have none := drewAudited.exact settled getElem?_concat_length
    rw [drawn]
    exact length_eq_zero_iff.mp none
  exact ⟨drewAudited, announced, announced.become rfl drawn absent⟩

theorem transition_tracked {between : Store} (kept : between.Audited entropy changed)
    (settled : between.keystoneTransition = none) (distinct : entropy.Distinct (between.draws + 1))
    (draws : between.draws = store.draws) (cred : between.operatorCred = store.operatorCred)
    (changes : expected ≠ some next)
    (asked : validateKeystoneTransitionAudit expected audit = .ok entry) (met : between.operatorCred = expected) :
    Keeps ({ between with draws := between.draws + 1 } : Store) (do
        createPendingKeystoneTransition (pendingTransition entropy expected next entry between.draws)
        compareAndSetOperatorCredential expected next
        reconcilePendingKeystoneTransition)
      (Tracked entropy changed store) := by
  obtain ⟨drew, announced, pinned⟩ := kept.transition settled distinct changes asked met
  have differs : some next ≠ store.operatorCred := by
    rw [← cred, met]
    exact Ne.symm changes
  have count : between.draws + 1 = store.draws + 1 := by rw [draws]
  have atDraw : Tracked entropy changed store { between with draws := between.draws + 1 } := .kept drew count cred
  have atMarker := Tracked.kept announced count cred
  refine .bind ?_
  apply Ensures.require_bind (fun _ => atDraw)
  intro _
  apply Ensures.read_bind
  split
  · next current held => exact absurd (settled.symm.trans held) (by simp)
  · apply Ensures.write atDraw atMarker
    refine .bind ?_
    apply Ensures.read_bind
    apply Ensures.require_bind (fun _ => atMarker)
    intro _
    rw [if_neg changes]
    apply Ensures.write atMarker (Tracked.became pinned count differs)
    apply (reconcile_audited pinned distinct).mono
    · rintro after ⟨⟨transition, log, rfl⟩, held⟩
      exact .became held count differs
    · rintro _ after ⟨⟨transition, log, rfl⟩, held, -⟩
      exact .became held count differs

theorem compareAndSetKeystoneCredential_tracked (audited : store.Audited entropy changed)
    (distinct : entropy.Distinct (store.draws + 1)) (expected : Option OperatorCredential)
    (next : OperatorCredential) (audit : Option AuditEntry) :
    Keeps store (compareAndSetKeystoneCredential entropy expected next audit) (Tracked entropy changed store) := by
  have earlier : entropy.Distinct store.draws := distinct.mono (Nat.le_succ _)
  refine .bind ?_
  apply (reconcile_audited audited earlier).mono
  · rintro after ⟨⟨transition, log, rfl⟩, kept⟩
    exact .same kept rfl
  rintro _ between ⟨⟨transition, log, same⟩, kept, settled, -⟩
  have draws : between.draws = store.draws := by rw [same]
  have cred : between.operatorCred = store.operatorCred := by rw [same]
  have here : Tracked entropy changed store between := .same kept draws
  split
  · next unchanged =>
    apply Ensures.require_bind (fun _ => here)
    intro _
    apply Ensures.read_bind
    apply Ensures.require_bind (fun _ => here)
    intro _
    rw [if_pos unchanged]
    exact .pure here
  · next changes =>
    apply Ensures.lift_bind (fun _ _ => here)
    intro entry asked
    apply Ensures.read_bind
    apply Ensures.require_bind (fun _ => here)
    intro met
    refine .bind ?_
    apply Ensures.read_bind
    refine .bind ?_
    apply Ensures.advance
    apply Ensures.pure
    exact transition_tracked kept settled (draws ▸ distinct) draws cred changes asked met

theorem Moves.audited {rules : Rules} (path : Moves crypto rules store after)
    (audited : store.Audited entropy changed) : after.Audited entropy changed ∧ after.draws = store.draws := by
  induction path with
  | refl => exact ⟨audited, rfl⟩
  | tail _ move ih =>
    obtain ⟨kept, draws⟩ := ih
    cases move with
    | prepare move =>
      cases move with
      | note entry plain settled =>
        refine ⟨kept.aside ⟨rfl, rfl, rfl⟩ (fun eventID named => ?_) (.inl settled), draws⟩
        rw [Store.appended_appendAudit, if_neg (plain ▸ Ne.symm named), append_nil]
      | _ => exact ⟨kept.aside ⟨rfl, rfl, rfl⟩ (fun _ _ => rfl) (.inr rfl), draws⟩
    | promote move => cases move <;> exact ⟨kept.aside ⟨rfl, rfl, rfl⟩ (fun _ _ => rfl) (.inr rfl), draws⟩

theorem Call.left_tracked (call : Call) (plan : List Fault) (deployed : store.Deployed crypto)
    (audited : store.Audited entropy changed) (distinct : entropy.Distinct (store.draws + 1)) :
    Tracked entropy changed store (call.left crypto entropy store plan) := by
  have earlier : entropy.Distinct store.draws := distinct.mono (Nat.le_succ _)
  have reconciled : Ensures store reconcilePendingKeystoneTransition
      (fun after => Reconciled store after ∧ after.Audited entropy changed)
      fun _ after => Reconciled store after ∧ after.Audited entropy changed :=
    (reconcile_audited audited earlier).weaken fun _ _ ended => ⟨ended.1, ended.2.1⟩
  have onward {between after : Store} (here : Reconciled store between ∧ between.Audited entropy changed)
      (path : Moves crypto (deployRules crypto) between after) : Tracked entropy changed store after := by
    obtain ⟨⟨transition, log, rfl⟩, kept⟩ := here
    obtain ⟨last, draws⟩ := path.audited kept
    exact .same last draws
  rcases call.left_cases entropy plan reconciled ⟨.refl store, audited⟩ (fun _ here => here.1.deployed deployed) with
    ⟨between, here, path⟩ | ⟨expected, next, audit, rfl, -⟩ | ⟨between, here, path, -⟩ | ⟨nodes, topology, same⟩
  · exact onward here path.moves
  · exact (compareAndSetKeystoneCredential_tracked audited distinct expected next audit).left plan
  · exact onward here path.moves
  · rw [same]
    exact .same (audited.aside ⟨rfl, rfl, rfl⟩ (fun _ _ => rfl) (.inr rfl)) rfl

end

/-- A store with the record of its draws. -/
structure Observed where
  store : Store
  changed : List Bool

section

variable (crypto : Crypto) (entropy : Entropy)

def Observed.step (run : Observed) (called : Call × List Fault) : Observed :=
  let after := called.1.left crypto entropy run.store called.2
  ⟨after, observed run.changed run.store after⟩

def Observed.run (operatorCred : Option OperatorCredential) (calls : List (Call × List Fault)) : Observed :=
  calls.foldl (Observed.step crypto entropy) ⟨{ operatorCred }, []⟩

end

def Call.reconciles : Call → Bool
  | .stage .. | .sign .. | .pin .. | .promote => true
  | .wake | .edit .. => false

section

variable {crypto : Crypto} {entropy : Entropy}

structure Observed.Sound (crypto : Crypto) (entropy : Entropy) (calls : Nat) (run : Observed) : Prop where
  deployed : run.store.Deployed crypto
  audited : run.store.Audited entropy run.changed
  draws : run.store.draws ≤ calls

theorem Observed.Sound.step {run : Observed} {calls bound : Nat} (sound : run.Sound crypto entropy calls)
    (within : calls < bound) (distinct : entropy.Distinct bound) (called : Call × List Fault) :
    (run.step crypto entropy called).Sound crypto entropy (calls + 1) := by
  have next : run.store.draws + 1 ≤ bound := Nat.succ_le_of_lt (Nat.lt_of_le_of_lt sound.draws within)
  have tracked := called.1.left_tracked called.2 sound.deployed sound.audited (distinct.mono next)
  refine ⟨(called.1.left_onward called.2 sound.deployed).1, tracked, ?_⟩
  have counted : (observed run.changed run.store (called.1.left crypto entropy run.store called.2)).length ≤
      run.changed.length + 1 := by
    unfold observed
    split <;> simp
  rw [tracked.length, sound.audited.length] at counted
  exact counted.trans (Nat.succ_le_succ sound.draws)

theorem Observed.run_sound (operatorCred : Option OperatorCredential) (calls : List (Call × List Fault))
    (distinct : entropy.Distinct calls.length) :
    (Observed.run crypto entropy operatorCred calls).Sound crypto entropy calls.length := by
  suffices general : ∀ (rest : List (Call × List Fault)) (run : Observed) (served : Nat),
      served + rest.length ≤ calls.length → run.Sound crypto entropy served →
      (rest.foldl (Observed.step crypto entropy) run).Sound crypto entropy (served + rest.length) by
    have start : (⟨{ operatorCred }, []⟩ : Observed).Sound crypto entropy 0 := by
      refine ⟨.start operatorCred, ⟨rfl, ?_, fun _ _ _ => rfl, nofun⟩, le_refl _⟩
      exact fun _ _ impossible => by simp at impossible
    have whole := general calls _ 0 (by simp) start
    rwa [Nat.zero_add] at whole
  intro rest
  induction rest with
  | nil => exact fun run served _ sound => sound
  | cons called rest ih =>
    intro run served bound sound
    rw [length_cons] at bound ⊢
    have stepped := ih _ (served + 1) (by omega) (sound.step (show served < calls.length by omega) distinct called)
    rwa [show served + 1 + rest.length = served + (rest.length + 1) by omega] at stepped

theorem Call.reconciles_first (call : Call) (crypto : Crypto) (entropy : Entropy)
    (reconciles : call.reconciles = true) (store : Store) (plan : List Fault) :
    (∃ value between rest, reconcilePendingKeystoneTransition store plan = ⟨.done value, between, rest⟩) ∨
      (∀ value, (reconcilePendingKeystoneTransition store plan).outcome ≠ .done value) ∧
        call.left crypto entropy store plan = reconcilePendingKeystoneTransition.left store plan := by
  cases call with
  | stage => exact returns_or_left_mapFail_bind _ _ _ store plan
  | sign => exact returns_or_left_mapFail_bind _ _ _ store plan
  | pin => exact returns_or_left_bind _ _ store plan
  | wake => cases reconciles
  | promote => exact returns_or_left_mapFail_bind _ _ _ store plan
  | edit => cases reconciles

/-- In every run whose draws are distinct, no entry was ever appended for a transition that did not become the
credential, and at most one for one that did. A call that reconciles goes no further than the marker and the log, or
goes on from a store in which exactly one entry was appended for every change of the credential: the log lists it if it
is among the newest entries, which retention keeps, and in any case if the change was still to be reconciled. -/
theorem keystone_changes_audited_exactly_once (crypto : Crypto) (entropy : Entropy)
    (operatorCred : Option OperatorCredential) (calls : List (Call × List Fault))
    (distinct : entropy.Distinct calls.length) :
    let run := Observed.run crypto entropy operatorCred calls
    (∀ draw : Nat, run.changed[draw]? = some false → run.store.appended (entropy.eventID draw) = []) ∧
    (∀ draw : Nat, run.changed[draw]? = some true → (run.store.appended (entropy.eventID draw)).length ≤ 1) ∧
    ∀ (call : Call) (plan : List Fault), call.reconciles = true →
      ((∀ value, (reconcilePendingKeystoneTransition run.store plan).outcome ≠ .done value) ∧
          Reconciled run.store (call.left crypto entropy run.store plan)) ∨
        ∃ between rest, reconcilePendingKeystoneTransition run.store plan = ⟨.done (), between, rest⟩ ∧
          (∀ draw : Nat, run.changed[draw]? = some true → ∃ entry, between.appended (entropy.eventID draw) = [entry] ∧
            (entry ∈ between.audit.history.drop (between.audit.history.length - auditRetain) →
              between.entries (entropy.eventID draw) = [entry])) ∧
          ∀ pending, run.store.keystoneTransition = some pending → run.store.operatorCred = some pending.next →
            between.entries pending.audit.eventID = [pending.audit] := by
  intro run
  have sound : run.Sound crypto entropy calls.length := Observed.run_sound operatorCred calls distinct
  have drawn : entropy.Distinct run.store.draws := distinct.mono sound.draws
  refine ⟨fun draw recorded => ?_, fun draw recorded => sound.audited.atMost drawn recorded, ?_⟩
  · have none := sound.audited.atMost drawn recorded
    exact length_eq_zero_iff.mp (Nat.le_zero.mp none)
  · intro call plan reconciles
    rcases call.reconciles_first crypto entropy reconciles run.store plan with
      ⟨⟨⟩, between, rest, ended⟩ | ⟨stopped, left⟩
    · obtain ⟨-, kept, settled, shown⟩ := (reconcile_audited sound.audited drawn).done ended
      refine .inr ⟨between, rest, ended, fun draw recorded => ?_, shown⟩
      obtain ⟨entry, only⟩ := length_eq_one_iff.mp (kept.exact settled recorded)
      exact ⟨entry, only, between.entries_of_newest only⟩
    · rw [left]
      exact .inl ⟨stopped, reconcile_frames.left plan⟩

end

/-- A first pin whose credential write takes effect and reports an error. -/
def samplePinned : List (Call × List Fault) :=
  [(.pin none (sampleCredential "k") (some { actor := "operator:o", action := "pin-operator-credential" }),
    [.applied, .unreported])]

theorem samplePinned_audited :
    let run := Observed.run sampleCrypto sampleEntropy none samplePinned
    run.changed[0]? = some true ∧ run.store.appended (sampleEntropy.eventID 0) = [] ∧
      ∃ between rest, reconcilePendingKeystoneTransition run.store [] = ⟨.done (), between, rest⟩ ∧
        ∃ entry, between.appended (sampleEntropy.eventID 0) = [entry] := by
  intro run
  have distinct : sampleEntropy.Distinct samplePinned.length := by
    rintro first below second bound -
    simp only [samplePinned, length_singleton] at below bound
    omega
  have became : run.changed[0]? = some true := by decide +kernel
  refine ⟨became, by decide +kernel, ?_⟩
  rcases (keystone_changes_audited_exactly_once sampleCrypto sampleEntropy none samplePinned distinct).2.2
    .promote [] rfl with ⟨stopped, -⟩ | ⟨between, rest, ended, exactly, -⟩
  · have returned : (reconcilePendingKeystoneTransition run.store []).outcome = .done () := by decide +kernel
    exact absurd returned (stopped ())
  · obtain ⟨entry, only, -⟩ := exactly 0 became
    exact ⟨between, rest, ended, entry, only⟩

end Yaog.Controller
