/-
  HouseLease.Proofs.Visit.Portal — the portal back from the hub, and the house the ledger is bound to.

  Going back binds the ledger to the house last left before it knows whether the player still holds that
  house. The question cannot fail any more: to know the house last left the ledger had to make its copy of
  the record, and the copy is what answers. So there are three ends: the record does not load and nothing was
  touched (`Call.goBack_fault`), it leads back to a house and the ledger is left there (`Call.goBack_opens`), or
  the ledger is bound as it was (`Call.goBack_stays`). The binding moves in the second alone, in which the portal
  opens.

  What a call leaves behind, the copy and the binding, changes nothing that the way back depends on. So a second
  one ends as the first did, at whatever time it is made (`the_binding_follows_the_portal`).
-/

import HouseLease.Proofs.Visit.Refusals

namespace HouseLease

/-! ## Loading -/

/-- The faults of loading a record: the store does not answer, or what it has does not load. -/
def Fault.ofLoading : Fault → Bool
  | .storeOffline | .recordUnreadable | .schemaMismatch _ | .houseListUnreadable => true
  | .unknownHouse _ | .missingLease _ | .invalidCatalog _ | .timestampOutOfRange _ | .storeUnflushed _ | .system _
  | .recordTooLong => false

section

variable {s s' : Setting} {v : Visit} {f : Fault} {h : Holdings} {held : Option Holdings} {last : String} {terms : House}

theorem Setting.held_ofLoading (hh : s.held v = .error f) : f.ofLoading = true := by
  rcases Setting.held_error hh with rfl | ⟨_, hf⟩
  · rfl
  · cases hf with
    | undecodable _ | version _ _ | houses _ _ _ => rfl

/-- It is the outage that matters for loading, and no clock. -/
theorem Setting.held_of_outage (houtage : s'.outage = s.outage) (v : Visit) : s'.held v = s.held v := by
  simp only [Setting.held, houtage]

/-! ## The ends of going back -/

theorem Call.goBack_fault (hh : s.held v = .error f) :
    Call.goBack.made s v = (⟨.error (.fault f), v.purse, v.ledger.house⟩, v) := by
  simp only [Call.made, Call.run, Act.map_apply, Hub.goBack_fault hh]

theorem Call.goBack_opens (hh : s.held v = .ok (some h)) (hback : Hub.LeadsBack s.catalog h last terms) :
    ∃ log, Call.goBack.made s v = (⟨.ok (.point? (some terms.fromHubPortal)), v.purse, last⟩,
      (v.consulted (some h) log).rebind last) := by
  obtain ⟨log, hopens⟩ := Hub.goBack_opens hh hback
  refine ⟨log, ?_⟩
  simp only [Call.made, Call.run, Act.map_apply, hopens]
  rfl

theorem Call.goBack_stays (hh : s.held v = .ok held)
    (hno : ∀ h last terms, held = some h → ¬ Hub.LeadsBack s.catalog h last terms) :
    ∃ log, Call.goBack.made s v = (⟨.ok (.point? none), v.purse, v.ledger.house⟩, v.consulted held log) := by
  obtain ⟨log, hstays⟩ := Hub.goBack_stays hh hno
  refine ⟨log, ?_⟩
  simp only [Call.made, Call.run, Act.map_apply, hstays]
  rfl

end

/-! ## The portal and the binding -/

/-- Where going back leaves the ledger: at the house whose portal opens, or where it was. -/
structure FollowsPortal (s : Setting) (v : Visit) : Prop where
  opens : ∀ p, (Call.goBack.made s v).1.answer = .ok (.point? (some p)) ↔
    ∃ h last terms, s.held v = .ok (some h) ∧ Hub.LeadsBack s.catalog h last terms ∧ terms.fromHubPortal = p
  bound : ∀ h last terms, s.held v = .ok (some h) → Hub.LeadsBack s.catalog h last terms →
    (Call.goBack.made s v).1.answer = .ok (.point? (some terms.fromHubPortal)) ∧
      (Call.goBack.made s v).1.house = last
  stays : (∀ h last terms, s.held v = .ok (some h) → ¬ Hub.LeadsBack s.catalog h last terms) →
    (Call.goBack.made s v).1.house = v.ledger.house ∧
      ((∃ held, s.held v = .ok held) ∧ (Call.goBack.made s v).1.answer = .ok (.point? none) ∨
        ∃ f, s.held v = .error f ∧ f.ofLoading = true ∧ (Call.goBack.made s v).1.answer = .error (.fault f))
  /-- The clocks may have gone on since. -/
  again : ∀ s', s'.catalog = s.catalog → s'.outage = s.outage →
    (Call.goBack.made s' (Call.goBack.made s v).2).1 = (Call.goBack.made s v).1

/-- Whatever catalog there is, whatever is stored, copied and bound, and whichever calls of the store fail. -/
theorem the_binding_follows_the_portal (s : Setting) (v : Visit) : FollowsPortal s v where
  opens := by
    intro p
    constructor
    · intro hanswer
      rcases Hub.leadsBack_cases s v with ⟨f, hh⟩ | ⟨h, last, terms, hh, hback⟩ | ⟨held, hh, hno⟩
      · rw [Call.goBack_fault hh] at hanswer
        cases hanswer
      · obtain ⟨log, hmade⟩ := Call.goBack_opens hh hback
        rw [hmade] at hanswer
        cases hanswer
        exact ⟨h, last, terms, hh, hback, rfl⟩
      · obtain ⟨log, hmade⟩ := Call.goBack_stays hh hno
        rw [hmade] at hanswer
        cases hanswer
    · intro hleads
      obtain ⟨h, last, terms, hh, hback, rfl⟩ := hleads
      obtain ⟨log, hmade⟩ := Call.goBack_opens hh hback
      rw [hmade]
  bound := by
    intro h last terms hh hback
    obtain ⟨log, hmade⟩ := Call.goBack_opens hh hback
    rw [hmade]
    exact ⟨rfl, rfl⟩
  stays := by
    intro hno
    cases hh : s.held v with
    | error f =>
      rw [Call.goBack_fault hh]
      exact ⟨rfl, Or.inr ⟨f, rfl, Setting.held_ofLoading hh, rfl⟩⟩
    | ok held =>
      obtain ⟨log, hmade⟩ := Call.goBack_stays hh fun h last terms hheld => hno h last terms (hh.trans (hheld ▸ rfl))
      rw [hmade]
      exact ⟨rfl, Or.inl ⟨⟨held, rfl⟩, rfl⟩⟩
  again := by
    intro s' hcatalog houtage
    rcases Hub.leadsBack_cases s v with ⟨f, hh⟩ | ⟨h, last, terms, hh, hback⟩ | ⟨held, hh, hno⟩
    · -- nothing was loaded, and it fails to load again
      have hh' : s'.held v = .error f := (Setting.held_of_outage houtage v).trans hh
      rw [Call.goBack_fault hh, Call.goBack_fault hh']
    · obtain ⟨log, hmade⟩ := Call.goBack_opens hh hback
      have hh' : s'.held ((v.consulted (some h) log).rebind last) = .ok (some h) := s'.held_of_copy rfl
      rw [← hcatalog] at hback
      obtain ⟨log', hmade'⟩ := Call.goBack_opens hh' hback
      rw [hmade, hmade']
      rfl
    · obtain ⟨log, hmade⟩ := Call.goBack_stays hh hno
      have hh' : s'.held (v.consulted held log) = .ok held := s'.held_of_copy rfl
      rw [← hcatalog] at hno
      obtain ⟨log', hmade'⟩ := Call.goBack_stays hh' hno
      rw [hmade, hmade']
      rfl

/-- Ann left a house of hers for the hub and holds it no more: she stays at the villa. -/
example :
    let v : Visit := { annAtGreyton with ledger := ⟨"Ann", "villa", .present ⟨[⟨"villa", 0⟩], some "greyton"⟩⟩ }
    (Call.goBack.made (shippedWith {}) v).1 = ⟨.ok (.point? none), 2000000, "villa"⟩ := by
  decide +kernel

end HouseLease
