/-
  HouseLease.Proofs.House.Admission — which lists of houses make a catalog, and what is in it.

  Houses are taken one by one. After each of them the catalog has the houses taken so far, all of them
  sound, in strictly increasing order of id (`Catalog.Offers`): so an id in the catalog is the id of a house
  taken before, and the next one is refused just for the first rule it breaks (`Offers.add_eq_error`).
  Along a list this goes on to its end or to the earliest house that breaks a rule (`Offers.taken`).
  - Lists of sound houses with different ids make a catalog, no others do, and what is wrong with those is
    what the earliest of their bad houses breaks first.
  - There is one strictly increasing arrangement of the houses of a list (`Offers.unique`). So nothing is lost or
    added in a catalog, and it does not depend on the order in which it was given the houses.

  `catalogs_are_exact` has all of it.
-/

import HouseLease.Proofs.House.Flaws
import Mathlib.Data.List.Nodup

namespace HouseLease

/-! ## Lists of houses -/

/-- The houses can be offered together. -/
structure House.Consistent (houses : List House) : Prop where
  sound : ∀ h ∈ houses, h.Sound
  distinct : (houses.map (·.id)).Nodup

/-- The earliest house that breaks a rule breaks this one. -/
def House.FirstFlaw (houses : List House) (flaw : Flaw) : Prop :=
  ∃ before h after, houses = before ++ h :: after ∧ House.Consistent before ∧ h.Breaks before flaw

theorem House.Consistent.of_perm {houses houses' : List House} (hc : House.Consistent houses)
    (hperm : houses.Perm houses') : House.Consistent houses' :=
  ⟨fun h hh => hc.sound h (hperm.mem_iff.mpr hh), (hperm.map (·.id)).nodup_iff.mp hc.distinct⟩

theorem House.Consistent.not_breaks {before after : List House} {h : House} {flaw : Flaw}
    (hc : House.Consistent (before ++ h :: after)) : ¬ h.Breaks before flaw := by
  intro hb
  have hsound : h.Sound := hc.sound h (List.mem_append_right _ List.mem_cons_self)
  rcases House.breaks_iff.mp hb with hf | ⟨-, hid, -⟩
  · rw [House.flaw?_eq_none.mpr hsound] at hf
    cases hf
  · have hdistinct := hc.distinct
    rw [List.map_append, List.nodup_append] at hdistinct
    exact hdistinct.2.2 _ hid _ List.mem_cons_self rfl

namespace Catalog

/-! ## Houses in order -/

/-- Strictly increasing in the bytes of the id. -/
def Increasing (houses : List House) : Prop := houses.Pairwise fun h k => Text.bytes h.id < Text.bytes k.id

theorem Increasing.distinct {houses : List House} (h : Increasing houses) : (houses.map (·.id)).Nodup := by
  refine List.pairwise_map.mpr (h.imp fun {a b} hlt => ?_)
  intro hid
  rw [hid] at hlt
  exact List.lt_irrefl _ hlt

theorem Increasing.eq_of_perm {houses houses' : List House} (h : Increasing houses) (h' : Increasing houses')
    (hperm : houses.Perm houses') : houses = houses' :=
  List.Perm.eq_of_pairwise (fun _ _ _ _ hlt hgt => absurd hgt (List.lt_asymm hlt)) h h' hperm

theorem place_perm (h : House) (ks : List House) : (place h ks).Perm (h :: ks) := by
  induction ks with
  | nil => exact .refl _
  | cons k ks ih =>
    rw [place]
    split
    · exact .refl _
    · exact (ih.cons k).trans (.swap h k ks)

theorem Increasing.place {h : House} {ks : List House} (hks : Increasing ks) (hnew : ∀ k ∈ ks, k.id ≠ h.id) :
    Increasing (place h ks) := by
  induction ks with
  | nil => exact List.pairwise_singleton _ _
  | cons k ks ih =>
    obtain ⟨hk, hks'⟩ := List.pairwise_cons.mp hks
    rw [Catalog.place]
    split
    · rename_i hbefore
      refine List.pairwise_cons.mpr ⟨?_, hks⟩
      intro j hj
      rcases List.mem_cons.mp hj with rfl | hj
      · exact hbefore
      · exact List.lt_trans hbefore (hk j hj)
    · rename_i hbefore
      refine List.pairwise_cons.mpr ⟨?_, ih hks' fun j hj => hnew j (List.mem_cons_of_mem _ hj)⟩
      intro j hj
      rcases List.mem_cons.mp ((place_perm h ks).mem_iff.mp hj) with rfl | hj
      · have hne : Text.bytes k.id ≠ Text.bytes j.id := mt Text.bytes_injective (hnew k List.mem_cons_self)
        exact Std.lt_of_le_of_ne (List.not_lt.mp hbefore) hne
      · exact hk j hj

/-! ## What a catalog has -/

theorem id_of_find? {c : Catalog} {id : String} {h : House} (hfind : c.find? id = some h) : h.id = id := by
  have hid := List.find?_some hfind
  exact eq_of_beq hid

/-- The catalog has these houses, all of them sound, in strictly increasing order of id, and the hub. -/
structure Offers (c : Catalog) (houses : List House) (hub : Point) : Prop where
  sound : ∀ h ∈ houses, h.Sound
  perm : c.houses.Perm houses
  increasing : Increasing c.houses
  hub : c.hub = hub

namespace Offers

variable {c c' : Catalog} {houses houses' : List House} {hub : Point} {h : House} {id : String} {flaw : Flaw}

theorem consistent (hc : c.Offers houses hub) : House.Consistent houses :=
  ⟨hc.sound, (hc.perm.map (·.id)).nodup_iff.mp hc.increasing.distinct⟩

theorem unique (hc : c.Offers houses hub) (hc' : c'.Offers houses' hub) (hperm : houses.Perm houses') : c = c' := by
  obtain ⟨ks, hub⟩ := c
  obtain ⟨ks', hub'⟩ := c'
  have hks : ks = ks' := hc.increasing.eq_of_perm hc'.increasing ((hc.perm.trans hperm).trans hc'.perm.symm)
  have hhub : hub = hub' := hc.hub.trans hc'.hub.symm
  rw [hks, hhub]

/-- An id is that of one house at most, so the first house found is the one. -/
theorem find?_eq_some (hc : c.Offers houses hub) : c.find? id = some h ↔ h ∈ houses ∧ h.id = id := by
  constructor
  · intro hfind
    exact ⟨hc.perm.mem_iff.mp (List.mem_of_find?_eq_some hfind), id_of_find? hfind⟩
  · intro hoffered
    obtain ⟨hmem, rfl⟩ := hoffered
    have hmem' : h ∈ c.houses := hc.perm.mem_iff.mpr hmem
    cases hfind : c.find? h.id with
    | none => exact absurd (beq_self_eq_true h.id) (List.find?_eq_none.mp hfind h hmem')
    | some k =>
      rw [List.inj_on_of_nodup_map hc.increasing.distinct (List.mem_of_find?_eq_some hfind) hmem' (id_of_find? hfind)]

theorem contains_iff (hc : c.Offers houses hub) : c.contains id = true ↔ id ∈ houses.map (·.id) := by
  rw [contains, Option.isSome_iff_exists, List.mem_map]
  simp only [hc.find?_eq_some]

/-! ## One house more -/

/-- The next house is refused for the first rule that it breaks behind the houses taken so far. -/
theorem add_eq_error (hc : c.Offers houses hub) : c.add h = .error flaw ↔ h.Breaks houses flaw := by
  rw [House.breaks_iff, ← hc.contains_iff, ← House.flaw?_eq_none]
  unfold add
  cases hf : h.flaw? with
  | some f => simp
  | none =>
    by_cases hid : c.contains h.id = true
    · simp [hid, eq_comm]
    · simp [hid]

theorem add (hc : c.Offers houses hub) (ha : c.add h = .ok c') : c'.Offers (houses ++ [h]) hub := by
  unfold Catalog.add at ha
  split at ha
  · cases ha
  · rename_i hf
    split at ha
    · cases ha
    · rename_i hid
      cases ha
      have hnew : ∀ k ∈ c.houses, k.id ≠ h.id := by
        intro k hk hsame
        exact hid (hc.contains_iff.mpr (List.mem_map.mpr ⟨k, hc.perm.mem_iff.mp hk, hsame⟩))
      refine ⟨?_, ?_, hc.increasing.place hnew, hc.hub⟩
      · intro k hk
        rcases List.mem_append.mp hk with hk | hk
        · exact hc.sound k hk
        · rw [List.mem_singleton.mp hk]
          exact House.flaw?_eq_none.mp hf
      · exact ((place_perm h c.houses).trans (hc.perm.cons h)).trans (List.perm_append_singleton h houses).symm

end Offers

/-! ## A list of houses -/

/-- What comes of a list of houses: a catalog of all of them, or the first flaw. -/
inductive Taken (houses : List House) (hub : Point) : Except Flaw Catalog → Prop
  | whole {c : Catalog} : c.Offers houses hub → Taken houses hub (.ok c)
  | refused {flaw : Flaw} : House.FirstFlaw houses flaw → Taken houses hub (.error flaw)

theorem Offers.taken {c : Catalog} {before : List House} {hub : Point} (hc : c.Offers before hub) (houses : List House) :
    Taken (before ++ houses) hub (houses.foldlM Catalog.add c) := by
  induction houses generalizing c before with
  | nil =>
    rw [List.append_nil]
    exact .whole hc
  | cons h after ih =>
    rw [List.foldlM_cons]
    cases ha : c.add h with
    | error flaw => exact .refused ⟨before, h, after, rfl, hc.consistent, hc.add_eq_error.mp ha⟩
    | ok c' =>
      have htaken := ih (hc.add ha)
      rw [List.append_assoc] at htaken
      exact htaken

variable {houses houses' : List House} {hub : Point} {c : Catalog} {flaw : Flaw}

theorem ofHouses_taken (houses : List House) (hub : Point) : Taken houses hub (ofHouses houses hub) :=
  Offers.taken (c := ⟨[], hub⟩) ⟨fun _ h => absurd h List.not_mem_nil, .nil, .nil, rfl⟩ houses

theorem ofHouses_offers (h : ofHouses houses hub = .ok c) : c.Offers houses hub := by
  have htaken := ofHouses_taken houses hub
  rw [h] at htaken
  cases htaken with
  | whole hc => exact hc

/-- Houses that can be offered together are. -/
theorem ofHouses_of_consistent (hc : House.Consistent houses) (hub : Point) :
    ∃ c, ofHouses houses hub = .ok c ∧ c.Offers houses hub := by
  have htaken := ofHouses_taken houses hub
  cases h : ofHouses houses hub with
  | ok c => exact ⟨c, rfl, ofHouses_offers h⟩
  | error flaw =>
    rw [h] at htaken
    cases htaken with
    | refused hflaw =>
      obtain ⟨before, k, after, rfl, -, hb⟩ := hflaw
      exact absurd hb hc.not_breaks

theorem ofHouses_eq_error : ofHouses houses hub = .error flaw ↔ House.FirstFlaw houses flaw := by
  constructor
  · intro h
    have htaken := ofHouses_taken houses hub
    rw [h] at htaken
    cases htaken with
    | refused hflaw => exact hflaw
  · intro h
    obtain ⟨before, k, after, rfl, hbefore, hb⟩ := h
    -- the houses before it are taken, and then it is refused
    obtain ⟨c, htaken, hc⟩ := ofHouses_of_consistent hbefore hub
    unfold ofHouses at htaken ⊢
    rw [List.foldlM_append, htaken]
    show (k :: after).foldlM add c = .error flaw
    rw [List.foldlM_cons, hc.add_eq_error.mpr hb]
    rfl

/-! ## Exactness -/

/-- What is made of a list of houses and a hub. -/
structure Exact (houses : List House) (hub : Point) : Prop where
  accepted : (∃ c, ofHouses houses hub = .ok c) ↔ House.Consistent houses
  refused : ∀ flaw, ofHouses houses hub = .error flaw ↔ House.FirstFlaw houses flaw
  listed : ∀ c, ofHouses houses hub = .ok c → c.houses.Perm houses ∧ Increasing c.houses ∧ c.hub = hub
  found : ∀ c, ofHouses houses hub = .ok c → ∀ id,
    (c.contains id = true ↔ ∃ h, c.find? id = some h) ∧ ∀ h, c.find? id = some h ↔ h ∈ houses ∧ h.id = id
  anyOrder : ∀ c, ofHouses houses hub = .ok c → ∀ houses', houses'.Perm houses → ofHouses houses' hub = .ok c

/-- A list of houses makes a catalog just if the houses can be offered together, and then the catalog has them all, each
    under its id, in an order of its own. -/
theorem catalogs_are_exact (houses : List House) (hub : Point) : Exact houses hub where
  accepted := by
    constructor
    · intro h
      obtain ⟨c, hc⟩ := h
      exact (ofHouses_offers hc).consistent
    · intro h
      obtain ⟨c, hc, -⟩ := ofHouses_of_consistent h hub
      exact ⟨c, hc⟩
  refused := fun _ => ofHouses_eq_error
  listed := by
    intro c h
    have hc := ofHouses_offers h
    exact ⟨hc.perm, hc.increasing, hc.hub⟩
  found := by
    intro c h id
    have hc := ofHouses_offers h
    exact ⟨Option.isSome_iff_exists, fun _ => hc.find?_eq_some⟩
  anyOrder := by
    intro c h houses' hperm
    have hc := ofHouses_offers h
    obtain ⟨c', h', hc'⟩ := ofHouses_of_consistent (hc.consistent.of_perm hperm.symm) hub
    rw [h', hc'.unique hc hperm]

/-- Ids are told apart by case and by blanks, and the earliest bad house decides. -/
example :
    (ofHouses [greyton, { greyton with id := "greyton " }, { greyton with id := "Greyton" }] everlink).map
        (·.houses.map (·.id)) = .ok ["Greyton", "greyton", "greyton "] ∧
      ofHouses [greyton, { greyton with id := "\u3000\t" }, greyton] everlink = .error .blankId := by
  decide +kernel

/-! ## Flaws -/

/-- Every house keeps the rules. -/
def Flawless (c : Catalog) : Prop := ∀ h ∈ c.houses, h.flaw? = none

theorem flawless_ofHouses {houses : List House} {hub : Point} {catalog : Catalog}
    (h : ofHouses houses hub = .ok catalog) : catalog.Flawless := by
  intro k hk
  have hc := ofHouses_offers h
  exact House.flaw?_eq_none.mpr (hc.sound k (hc.perm.mem_iff.mp hk))

/-- What can be found in such a catalog has no flaw. -/
theorem Flawless.flaw? {c : Catalog} {id : String} {h : House} (hc : c.Flawless) (hf : c.find? id = some h) :
    h.flaw? = none :=
  hc h (List.mem_of_find?_eq_some hf)

end Catalog

end HouseLease
