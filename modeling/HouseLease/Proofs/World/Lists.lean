/-
  HouseLease.Proofs.World.Lists — what is true of every list of leases there is.

  A list is in a record or in the copy of a ledger, and several ledgers may have different copies of
  one record. If a property holds of the empty list, and of the list of every draft once it holds of
  the list the ledger shows, then a call keeps it for all lists (`Visit.Lists.made`), and so does a
  step of the world (`World.Lists.step`): it does not matter which copies are stale.

  So no list ever has a house twice (`no_house_listed_twice`), though nothing looks for duplicates
  when a record is read or written.
-/

import HouseLease.Proofs.Visit.Amending
import HouseLease.Proofs.World.Steps

namespace HouseLease

/-! ## All lists -/

/-- `P` holds of the list in every record that can be read. -/
def Store.Lists (P : List Lease → Prop) (store : Store) : Prop :=
  ∀ player h, store.holdings player = .ok (some h) → P h.leases

structure Visit.Lists (P : List Lease → Prop) (v : Visit) : Prop where
  stored : v.store.Lists P
  copied : ∀ h, v.ledger.copy = .present h → P h.leases

structure World.Lists (P : List Lease → Prop) (w : World) : Prop where
  stored : w.store.Lists P
  copied : ∀ name l, w.ledgers.lookup name = some l → ∀ h, l.copy = .present h → P h.leases

section

variable {P : List Lease → Prop} {s : Setting} {v : Visit} {store store' : Store}

theorem Store.Lists.write {player : String} {h : Holdings} (hs : store.Lists P)
    (hw : s.written store player h = .ok store') (hp : P h.leases) : store'.Lists P := by
  obtain ⟨-, wall, -, hwrite⟩ := Setting.written_ok hw
  intro q k hk
  rw [Store.holdings_write hwrite] at hk
  split at hk
  · cases hk
    exact hp
  · exact hs q k hk

theorem Store.Lists.created {r : Record} (hs : v.store.Lists P) (hc : s.created v = .ok (r, store))
    (hnil : P []) : store.Lists P := by
  obtain ⟨-, wall, -, hcreate⟩ := Setting.created_ok hc
  intro q k hk
  rw [Store.holdings_create hcreate] at hk
  split at hk
  · cases hk
    exact hnil
  · exact hs q k hk

theorem Visit.Lists.held {held : Option Holdings} (hv : v.Lists P) (hnil : P []) (hh : s.held v = .ok held) :
    P (leasesOf held) := by
  have hh := Setting.held_eq hh
  cases held with
  | none => exact hnil
  | some h =>
    unfold Visit.held at hh
    split at hh
    · rename_i hcopy
      cases hh
      exact hv.copied h hcopy
    · cases hh
    · exact hv.stored v.ledger.player h hh

/-- A call keeps what holds of all lists, if its drafts do. -/
theorem Visit.Lists.made {c : Call} (hv : v.Lists P) (hnil : P [])
    (hdraft : ∀ d held, Drafts s v c d → s.held v = .ok held → P (leasesOf held) → P d.holdings.leases) :
    (c.made s v).2.Lists P := by
  have hdrafted : ∀ d, Drafts s v c d → P d.holdings.leases ∧ d.store.Lists P := by
    intro d hd
    rcases hd.source with ⟨h, hh, hstore⟩ | ⟨hh, -, ⟨r, hc⟩, -⟩
    · exact ⟨hdraft d _ hd hh (hv.held hnil hh), hstore ▸ hv.stored⟩
    · exact ⟨hdraft d _ hd hh (hv.held hnil hh), hv.stored.created hc hnil⟩
  generalize (c.made s v).2 = w, c.leaves s v = hw
  cases hw with
  | written hd hwrite hcopy =>
    obtain ⟨hp, hstore⟩ := hdrafted _ hd
    refine ⟨hstore.write hwrite hp, fun h hh => ?_⟩
    cases hcopy.symm.trans hh
    exact hp
  | unwritten hd _ hsame hcopy =>
    obtain ⟨hp, hstore⟩ := hdrafted _ hd
    refine ⟨hsame ▸ hstore, fun h hh => ?_⟩
    cases hcopy.symm.trans hh
    exact hp
  | enrolled he hcopy =>
    refine ⟨?_, fun h hh => ?_⟩
    · rcases Setting.enrolled_cases he with ⟨-, hsame⟩ | ⟨-, -, r, hc⟩
      · exact hsame ▸ hv.stored
      · exact hv.stored.created hc hnil
    · cases hcopy.symm.trans hh
      obtain ⟨held, hheld, hleases⟩ := Setting.leases_enrolled he
      exact hleases ▸ hv.held hnil hheld
  | stranded hst =>
    obtain ⟨r, hc⟩ := hst.created
    exact ⟨hv.stored.created hc hnil, fun h hh => by cases hst.copy.symm.trans hh⟩
  | looked hsame hcopy =>
    refine ⟨hsame ▸ hv.stored, fun h hh => ?_⟩
    rcases hcopy with hcopy | ⟨held, hheld, hcopy⟩
    · exact hv.copied h (hcopy.symm.trans hh)
    · cases held with
      | none => cases hcopy.symm.trans hh
      | some k =>
        cases hcopy.symm.trans hh
        exact hv.held hnil hheld

/-- There are no lists yet where nobody has a record or a ledger. -/
theorem World.Lists.fresh (P : List Lease → Prop) (purses : List (String × Int64)) : World.Lists P { purses } :=
  ⟨fun _ _ hk => (by cases hk), fun _ _ hk => (by cases hk)⟩

theorem World.Lists.imp {Q : List Lease → Prop} {w : World} (hw : w.Lists P) (h : ∀ ls, P ls → Q ls) : w.Lists Q :=
  ⟨fun player k hk => h _ (hw.stored player k hk), fun name l hl k hk => h _ (hw.copied name l hl k hk)⟩

theorem World.Lists.visit {w : World} {name : String} {l : Ledger} (hw : w.Lists P)
    (hl : w.ledgers.lookup name = some l) (b : Int64) : (w.visit l b).Lists P :=
  ⟨hw.stored, hw.copied name l hl⟩

/-- A step keeps what holds of all lists, if the drafts of its call do. -/
theorem World.Lists.after {w : World} {step : Step} (hw : w.Lists P) (hnil : P []) (hb : step.bypasses = false)
    (hdraft : ∀ name purse c, step = .call name purse c → ∀ v d held, Drafts s v c d → s.held v = .ok held →
      P (leasesOf held) → P d.holdings.leases) : (w.after s step).Lists P := by
  cases World.stepped s w hb with
  | idle _ hstore hledgers => exact ⟨hstore ▸ hw.stored, hledgers ▸ hw.copied⟩
  | opened hstore hledgers =>
    refine ⟨hstore ▸ hw.stored, fun k l hl h hh => ?_⟩
    rw [hledgers, lookup_assign] at hl
    split at hl
    · cases hl
      cases hh
    · exact hw.copied k l hl h hh
  | @called name purse c l b hl hstore hledgers =>
    have hmade := (hw.visit hl b).made hnil (hdraft name purse c rfl (w.visit l b))
    refine ⟨hstore ▸ hmade.stored, fun k l' hl' h hh => ?_⟩
    rw [hledgers, lookup_assign] at hl'
    split at hl'
    · cases hl'
      exact hmade.copied h hh
    · exact hw.copied k l' hl' h hh

end

/-! ## No house twice -/

/-- No two leases are on one house. -/
def Distinct (ls : List Lease) : Prop := (ls.map (·.house)).Nodup

instance (ls : List Lease) : Decidable (Distinct ls) := inferInstanceAs (Decidable (List.Nodup _))

theorem Amended.distinct {ls ls' : List Lease} (h : Amended ls ls') (hd : Distinct ls) : Distinct ls' := by
  unfold Distinct at hd ⊢
  cases h with
  | same => exact hd
  | extended _ _ =>
    rw [extendFirst_house]
    exact hd
  | @acquired house t hnew =>
    rw [List.map_append, List.map_cons, List.map_nil]
    refine List.nodup_append.mpr ⟨hd, by simp, fun a ha b hb => ?_⟩
    rw [List.mem_singleton.mp hb]
    rintro rfl
    exact hnew ha

theorem Drafts.distinct {s : Setting} {v : Visit} {c : Call} {d : Draft} {held : Option Holdings} (hd : Drafts s v c d)
    (hh : s.held v = .ok held) (hp : Distinct (leasesOf held)) : Distinct d.holdings.leases := by
  obtain ⟨held', hh', ham⟩ := hd.amended
  cases hh.symm.trans hh'
  exact ham.distinct hp

theorem World.Lists.run_distinct {w : World} {steps : List (Setting × Step)} (hw : w.Lists Distinct)
    (hsteps : ∀ p ∈ steps, p.2.bypasses = false) : (w.run steps).2.Lists Distinct := by
  induction steps generalizing w with
  | nil => exact hw
  | cons p rest ih =>
    obtain ⟨s, step⟩ := p
    obtain ⟨hb, hrest⟩ := List.forall_mem_cons.mp hsteps
    rw [World.run_cons]
    refine ih (hw.after List.nodup_nil hb ?_) hrest
    intro _ _ _ _ _ _ _ hd hh hp
    exact hd.distinct hh hp

/-- What a ledger answers when asked for its leases is what it shows. -/
theorem Call.leases_answer {s : Setting} {v : Visit} {ls : List Lease}
    (h : (Call.leases.made s v).1.answer = .ok (.leases ls)) : ∃ held, s.held v = .ok held ∧ ls = leasesOf held := by
  cases hh : s.held v with
  | ok held =>
    obtain ⟨log, hl⟩ := Ledger.leases_ok hh
    refine ⟨held, rfl, ?_⟩
    simpa [Call.made, Call.run, hl, leasesOf] using h.symm
  | error f => simp [Call.made, Call.run, Ledger.leases, Ledger.consult_error hh] at h

/-- However many ledgers work on a store, in whatever order and with whatever failing, no record and no ledger ever
    lists a house twice, if no record did at first. -/
theorem no_house_listed_twice {store : Store} {purses : List (String × Int64)} {steps : List (Setting × Step)}
    (hstore : store.Lists Distinct) (hsteps : ∀ p ∈ steps, p.2.bypasses = false) :
    (World.run { store, purses } steps).2.store.Lists Distinct ∧
      ∀ s name purse reply w ls, (World.run { store, purses } steps).2.step s (.call name purse .leases) = some (reply, w) →
        reply.answer = .ok (.leases ls) → Distinct ls := by
  have hw : World.Lists Distinct { store, purses } := ⟨hstore, fun _ _ hl => by cases hl⟩
  have hend := hw.run_distinct hsteps
  refine ⟨hend.stored, fun s name purse reply w ls hcall hanswer => ?_⟩
  obtain ⟨l, b, hl, -, hmade, -⟩ := World.call_eq_some hcall
  obtain ⟨held, hh, rfl⟩ := Call.leases_answer (hmade.symm.trans hanswer)
  exact (hend.visit hl b).held List.nodup_nil hh

/-- Bob has two houses and nobody else has a record. -/
def bobsStore : Store :=
  match (shippedWith {}).written .empty "Bob" ⟨[⟨"villa", 5⟩, ⟨"greyton", 1700000000⟩], none⟩ with
  | .ok store => store
  | .error _ => .empty

theorem bobsStore_distinct : bobsStore.Lists Distinct := by
  have hw : (shippedWith {}).written .empty "Bob" ⟨[⟨"villa", 5⟩, ⟨"greyton", 1700000000⟩], none⟩ = .ok bobsStore := by
    decide +kernel
  exact Store.Lists.write (fun _ _ h => by cases h) hw (by decide)

/-- Two ledgers of Ann's buy the same house, one from a copy made before the other bought it and with its write
    failing; the other then writes from its own copy. -/
def boughtTwice : List (Setting × Step) :=
  [(shippedWith {}, .openLedger "old" "Ann" "greyton"), (shippedWith {}, .openLedger "new" "ann" "greyton"),
    (shippedWith {}, .call "old" none .hasHouse), (shippedWith {}, .call "new" none .purchase),
    (shippedWith { put := true }, .call "old" none .purchase), (shippedWith {}, .call "old" none .purchase),
    (shippedWith {}, .call "new" none .depart)]

theorem bought_twice_listed_once :
    let w := (World.run { store := bobsStore } boughtTwice).2
    w.store.holdings "Ann" = .ok (some ⟨[⟨"greyton", 1700864000⟩], some "greyton"⟩) ∧ w.store.Lists Distinct ∧
      ∀ s name purse reply w' ls, w.step s (.call name purse .leases) = some (reply, w') →
        reply.answer = .ok (.leases ls) → Distinct ls :=
  ⟨by decide +kernel, no_house_listed_twice bobsStore_distinct (by decide)⟩

end HouseLease
