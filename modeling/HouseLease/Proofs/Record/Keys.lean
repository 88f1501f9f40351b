/-
  HouseLease.Proofs.Record.Keys — which records share a key.

  A key joins player and tag with a colon and escapes nothing, and only the player goes to
  lower case. Two different pairs have one key when a name goes on with a colon and the rest
  of it opens the other pair's tag (`Overlaps`, `recordKey_eq_iff`), and in no other case.

  Records of other keys are never touched. So writing or creating a record leaves what is
  read for another pair exactly when the pairs do not overlap (`apart_iff`); without a colon in
  names or tags they never do (`apart_of_plain`). Ann's record under the tag `old:luxury_house` is the
  record with the houses of a player named `ann:old` (`a_stranger_has_the_record`).
-/

import HouseLease.Proofs.Record.Rewriting

namespace HouseLease

variable {p t q u : String}

/-! ## Keys -/

/-- The name `q` goes on after `p` with a colon, and the tag `t` goes on with what follows it in `q`. -/
def Overlaps (p t q u : String) : Prop :=
  ∃ rest, accountName q = accountName p ++ ":" ++ rest ∧ t = rest ++ ":" ++ u

/-- Two pairs of lists joined by a separator that the lists may contain. -/
theorem append_cons_eq_append_cons {α : Type} {sep : α} {xs ys xs' ys' : List α} :
    xs ++ sep :: ys = xs' ++ sep :: ys' ↔
      (xs = xs' ∧ ys = ys') ∨ (∃ rest, xs' = xs ++ sep :: rest ∧ ys = rest ++ sep :: ys') ∨
        ∃ rest, xs = xs' ++ sep :: rest ∧ ys' = rest ++ sep :: ys := by
  constructor
  · intro h
    rcases List.append_eq_append_iff.mp h with ⟨mid, hxs, hys⟩ | ⟨mid, hxs, hys⟩
    · cases mid with
      | nil => simp_all
      | cons c rest =>
        obtain ⟨rfl, rfl⟩ := List.cons_eq_cons.mp hys
        exact .inr (.inl ⟨rest, hxs, rfl⟩)
    · cases mid with
      | nil => simp_all
      | cons c rest =>
        obtain ⟨rfl, rfl⟩ := List.cons_eq_cons.mp hys
        exact .inr (.inr ⟨rest, hxs, rfl⟩)
  · rintro (⟨rfl, rfl⟩ | ⟨rest, rfl, rfl⟩ | ⟨rest, rfl, rfl⟩) <;> simp

theorem recordKey_toList (player tag : String) :
    recordKey player tag =
      Text.bytes (String.ofList (keyWord.toList ++ ((accountName player).toList ++ ':' :: tag.toList))) := by
  unfold recordKey
  congr 1
  apply String.toList_injective
  simp [accountName, List.append_assoc]

theorem overlaps_iff_toList : Overlaps p t q u ↔
    ∃ rest, (accountName q).toList = (accountName p).toList ++ ':' :: rest ∧ t.toList = rest ++ ':' :: u.toList := by
  constructor
  · rintro ⟨rest, hq, ht⟩
    exact ⟨rest.toList, by simp [hq, List.append_assoc], by simp [ht, List.append_assoc]⟩
  · rintro ⟨rest, hq, ht⟩
    refine ⟨String.ofList rest, String.toList_injective ?_, String.toList_injective ?_⟩
    · simp [hq, List.append_assoc]
    · simp [ht, List.append_assoc]

theorem recordKey_eq_iff : recordKey p t = recordKey q u ↔
    (accountName p = accountName q ∧ t = u) ∨ Overlaps p t q u ∨ Overlaps q u p t := by
  have hbytes {a b : String} : Text.bytes a = Text.bytes b ↔ a = b := ⟨Text.bytes_injective, congrArg Text.bytes⟩
  have hlists : recordKey p t = recordKey q u ↔
      (accountName p).toList ++ ':' :: t.toList = (accountName q).toList ++ ':' :: u.toList := by
    rw [recordKey_toList, recordKey_toList, hbytes, String.ofList_inj, List.append_cancel_left_eq]
  rw [hlists, append_cons_eq_append_cons, overlaps_iff_toList, overlaps_iff_toList, String.toList_inj,
    String.toList_inj]

/-- A tag without a colon is no other tag with something joined before it. -/
theorem not_overlaps_of_tag (h : ':' ∉ t.toList) : ¬ Overlaps p t q u := by
  rw [overlaps_iff_toList]
  rintro ⟨rest, -, ht⟩
  simp [ht] at h

theorem not_overlaps_of_name (h : ':' ∉ (accountName q).toList) : ¬ Overlaps p t q u := by
  rw [overlaps_iff_toList]
  rintro ⟨rest, hq, -⟩
  simp [hq] at h

/-! ## Records -/

/-- Neither storing nor creating `p`'s record under `t` changes what is read for `q` under `u`. -/
structure Apart (p t q u : String) : Prop where
  write : ∀ {s s' : Store} {wall : Instant} {houses : String} {last : Option String},
    s.write wall p t houses last = .ok s' → s'.fetch q u = s.fetch q u
  create : ∀ {s s' : Store} {wall : Instant} {r : Record},
    s.create wall p t = .ok (r, s') → s'.fetch q u = s.fetch q u

theorem apart_of_key_ne (h : recordKey q u ≠ recordKey p t) : Apart p t q u where
  write {s s' wall houses last} hw := by
    unfold Store.fetch
    rw [Store.find?_write_ne hw h]
  create {s s' wall r} hc := by
    unfold Store.fetch
    rw [Store.find?_write_ne (Store.create_eq_ok hc).2 h]

theorem fetch_of_key_eq (s : Store) (h : recordKey q u = recordKey p t) : s.fetch q u = s.fetch p t := by
  unfold Store.fetch
  rw [h]

/-- Pairs of one key are not apart: the first record created for one of them is there for the other. -/
theorem not_apart_of_key_eq (h : recordKey q u = recordKey p t) : ¬ Apart p t q u := by
  intro hapart
  have hblank : (Record.toBytes? (Store.blankRecord .epoch)).isSome := by decide +kernel
  obtain ⟨value, hvalue⟩ := Option.isSome_iff_exists.mp hblank
  have hwrite : Store.empty.write .epoch p t (HouseList.write []) none =
      .ok (Store.empty.insert (recordKey p t) value) := by
    unfold Store.write
    rw [show Record.toBytes? ⟨HouseList.write [], none, .epoch, schemaVersion⟩ = some value from hvalue]
  have hread := hapart.write hwrite
  obtain ⟨j, hj⟩ := Store.fetch_write hwrite rfl
  rw [fetch_of_key_eq _ h, hj] at hread
  cases hread

theorem recordKey_eq_iff_overlaps (h : accountName p ≠ accountName q ∨ t ≠ u) :
    recordKey q u = recordKey p t ↔ Overlaps p t q u ∨ Overlaps q u p t := by
  rw [eq_comm, recordKey_eq_iff]
  constructor
  · rintro (⟨hname, htag⟩ | hover)
    · rcases h with hp | ht
      · exact absurd hname hp
      · exact absurd htag ht
    · exact hover
  · exact .inr

/-- Pairs are apart if on either side the name or the other pair's tag has no colon. -/
theorem apart_of_plain (h : accountName p ≠ accountName q ∨ t ≠ u)
    (hqt : ':' ∉ (accountName q).toList ∨ ':' ∉ t.toList) (hpu : ':' ∉ (accountName p).toList ∨ ':' ∉ u.toList) :
    Apart p t q u := by
  refine apart_of_key_ne fun hkey => ?_
  rcases (recordKey_eq_iff_overlaps h).mp hkey with hover | hover
  · exact hqt.elim not_overlaps_of_name not_overlaps_of_tag hover
  · exact hpu.elim not_overlaps_of_name not_overlaps_of_tag hover

/-- Records of different pairs are independent exactly when neither name runs into the other pair's tag. -/
theorem apart_iff (h : accountName p ≠ accountName q ∨ t ≠ u) :
    Apart p t q u ↔ ¬ Overlaps p t q u ∧ ¬ Overlaps q u p t := by
  rw [← not_or, ← recordKey_eq_iff_overlaps h]
  constructor
  · intro hapart hkey
    exact not_apart_of_key_eq hkey hapart
  · exact apart_of_key_ne

/-- A colon in a name does no harm among the records with houses: Ann's and those of `ann:old` are two. -/
theorem two_anns_are_apart : accountName "Ann" ≠ accountName "ann:old" ∧ Apart "Ann" houseTag "ann:old" houseTag := by
  have hnames : accountName "Ann" ≠ accountName "ann:old" := by decide +kernel
  have htag : ':' ∉ houseTag.toList := by decide +kernel
  exact ⟨hnames, (apart_iff (.inl hnames)).mpr ⟨not_overlaps_of_tag htag, not_overlaps_of_tag htag⟩⟩

/-- Ann's record under another tag, just created, is what the store has of the houses of `ann:old`, who had none. -/
theorem a_stranger_has_the_record :
    accountName "ann" ≠ accountName "ann:old" ∧ "old:luxury_house" ≠ houseTag ∧
      Store.empty.fetch "ann:old" houseTag = .ok none ∧
        ∃ r s' j, Store.empty.create .epoch "ann" "old:luxury_house" = .ok (r, s') ∧
          s'.fetch "ann:old" houseTag = .ok (some { r with updatedAt := j }) := by
  obtain ⟨s', hs'⟩ : ∃ s', Store.empty.create .epoch "ann" "old:luxury_house" = .ok (Store.blankRecord .epoch, s') :=
    ⟨_, rfl⟩
  obtain ⟨j, hj⟩ := Store.fetch_write (Store.create_eq_ok hs').2 rfl
  have hkey : recordKey "ann:old" houseTag = recordKey "ann" "old:luxury_house" := by decide +kernel
  refine ⟨by decide +kernel, by decide +kernel, rfl, _, s', j, hs', ?_⟩
  rw [fetch_of_key_eq s' hkey, hj]
  rfl

end HouseLease
