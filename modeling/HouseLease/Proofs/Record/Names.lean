/-
  HouseLease.Proofs.Record.Names — the players a store lists.

  Keys stand in increasing order, and a write keeps them there (`Sorted.insert`). Whatever a player's
  name contains, it is found again in the key it was put into (`playerOfKey?_recordKey`). So a store
  that has nothing but records that load (`Tidy`) lists the players who have one, each of them once
  (`Tidy.mem_players`, `Tidy.nodup_players`). Writing holdings keeps a store tidy (`Tidy.write`).
-/

import HouseLease.Proofs.Record.Keys

namespace HouseLease

open Text (Bytes)

/-! ## Names in keys -/

theorem toLower_toLower (c : Char) : c.toLower.toLower = c.toLower := by
  have hother {c : Char} (h : ¬ (c.val ≥ 'A'.val ∧ c.val ≤ 'Z'.val)) : c.toLower = c := dif_neg h
  by_cases hcapital : c.val ≥ 'A'.val ∧ c.val ≤ 'Z'.val
  · -- a capital is moved past the last capital
    refine hother fun hlow => ?_
    have hmoved : c.toLower.val = c.val + 32 := congrArg Char.val (dif_pos hcapital : c.toLower = _)
    have hfirst : 65 ≤ c.val.toNat := UInt32.le_iff_toNat_le.mp hcapital.1
    have hlast : c.val.toNat ≤ 90 := UInt32.le_iff_toNat_le.mp hcapital.2
    have hlow : (c.val + 32).toNat ≤ 90 := UInt32.le_iff_toNat_le.mp (hmoved ▸ hlow.2)
    have hsum : (c.val + 32).toNat = (c.val.toNat + 32) % 2 ^ 32 := UInt32.toNat_add _ _
    omega
  · rw [hother hcapital, hother hcapital]

/-- A name in lower case is its own account's. -/
theorem accountName_idem (player : String) : accountName (accountName player) = accountName player := by
  refine String.toList_injective ?_
  simp only [accountName, String.toList_map, List.map_map, Function.comp_def, toLower_toLower]

/-- A name is read back from its key, in lower case, even if it contains the separator or ends like the key. -/
theorem playerOfKey?_recordKey (player tag : String) :
    playerOfKey? tag (recordKey player tag) = some (accountName player) := by
  have hword : (Text.bytes keyWord).isPrefixOf (recordKey player tag) = true := by
    rw [List.isPrefixOf_iff_prefix, recordKey, String.append_assoc, String.append_assoc, Text.bytes_append]
    exact List.prefix_append _ _
  have hname : (Text.lossy (recordKey player tag)).toList.drop keyWord.length
      = (accountName player).toList ++ (":" ++ tag).toList := by
    rw [recordKey_toList, Text.lossy_bytes, String.toList_ofList, ← String.length_toList, List.drop_left,
      String.toList_append]
    rfl
  have hmark : (":" ++ tag).toList.isSuffixOf ((accountName player).toList ++ (":" ++ tag).toList) = true :=
    List.isSuffixOf_iff_suffix.mpr (List.suffix_append _ _)
  unfold playerOfKey?
  rw [if_pos hword, hname]
  simp only [hmark, if_true, List.length_append, Nat.add_sub_cancel, List.take_left, String.ofList_toList]

namespace Store

/-! ## The order of keys -/

/-- The keys increase, so none is there twice. -/
def Sorted (s : Store) : Prop := s.entries.Pairwise (·.1 < ·.1)

theorem mem_placeEntry {key value : Bytes} {e : Bytes × Bytes} {es : List (Bytes × Bytes)}
    (h : e ∈ placeEntry key value es) : e = (key, value) ∨ e ∈ es := by
  induction es with
  | nil => exact .inl (List.mem_singleton.mp h)
  | cons first rest ih =>
    obtain ⟨k, v⟩ := first
    rw [placeEntry] at h
    split at h
    · exact List.mem_cons.mp h
    · split at h
      · rcases List.mem_cons.mp h with h | h
        · exact .inl h
        · exact .inr (List.mem_cons_of_mem _ h)
      · rcases List.mem_cons.mp h with h | h
        · exact .inr (h ▸ List.mem_cons_self)
        · exact (ih h).imp_right (List.mem_cons_of_mem _)

theorem Sorted.insert {s : Store} (hs : s.Sorted) (key value : Bytes) : (s.insert key value).Sorted := by
  obtain ⟨es⟩ := s
  change es.Pairwise (·.1 < ·.1) at hs
  change (placeEntry key value es).Pairwise (·.1 < ·.1)
  induction es with
  | nil => exact List.pairwise_singleton _ _
  | cons first rest ih =>
    obtain ⟨k, v⟩ := first
    obtain ⟨hfirst, hrest⟩ := List.pairwise_cons.mp hs
    rw [placeEntry]
    split
    · rename_i hbefore
      refine List.pairwise_cons.mpr ⟨fun e he => ?_, hs⟩
      rcases List.mem_cons.mp he with rfl | he
      · exact hbefore
      · exact List.lt_trans hbefore (hfirst e he)
    · rename_i hbefore
      split
      · rename_i hsame
        exact List.pairwise_cons.mpr ⟨fun e he => hsame ▸ hfirst e he, hrest⟩
      · rename_i hother
        refine List.pairwise_cons.mpr ⟨fun e he => ?_, ih hrest⟩
        rcases mem_placeEntry he with rfl | he
        · exact Std.lt_of_le_of_ne (List.not_lt.mp hbefore) (Ne.symm hother)
        · exact hfirst e he

/-! ## Stores with records only -/

/-- Every key is that of a player's record, and the record loads. -/
structure Tidy (s : Store) : Prop where
  sorted : s.Sorted
  loads : ∀ {key}, (s.find? key).isSome → ∃ player h, key = recordKey player houseTag ∧ s.holdings player = .ok (some h)

theorem isSome_find?_iff {s : Store} {key : Bytes} : (s.find? key).isSome ↔ ∃ value, (key, value) ∈ s.entries := by
  rw [find?, List.lookup_isSome_iff]
  constructor
  · rintro ⟨⟨k, value⟩, hmem, hk⟩
    exact ⟨value, eq_of_beq hk ▸ hmem⟩
  · rintro ⟨value, hmem⟩
    exact ⟨_, hmem, beq_self_eq_true key⟩

namespace Tidy

variable {s : Store}

theorem empty : Tidy .empty := ⟨.nil, fun h => by cases h⟩

theorem write {s' : Store} {wall : Instant} {player : String} {h : Holdings} (hs : s.Tidy)
    (hw : s.write wall player houseTag (HouseList.write h.leases) h.lastHouse = .ok s') : s'.Tidy := by
  have hholdings := holdings_write hw
  obtain ⟨value, -, rfl⟩ := write_eq_ok hw
  refine ⟨hs.sorted.insert _ _, fun {key} hkey => ?_⟩
  by_cases hsame : key = recordKey player houseTag
  · exact ⟨player, h, hsame, by rw [hholdings, if_pos rfl]⟩
  · rw [find?_insert, if_neg hsame] at hkey
    obtain ⟨q, k, rfl, hq⟩ := hs.loads hkey
    exact ⟨q, k, rfl, by rw [hholdings, if_neg (mt recordKey_inj.mpr hsame), hq]⟩

theorem holdings (hs : s.Tidy) {player : String} (h : (s.find? (recordKey player houseTag)).isSome) :
    ∃ k, s.holdings player = .ok (some k) := by
  obtain ⟨q, k, hkey, hq⟩ := hs.loads h
  exact ⟨k, by rw [holdings_of_account s (recordKey_inj.mp hkey), hq]⟩

theorem player_of_mem (hs : s.Tidy) {key value : Bytes} (h : (key, value) ∈ s.entries) :
    ∃ player, key = recordKey player houseTag := by
  obtain ⟨player, -, hkey, -⟩ := hs.loads (isSome_find?_iff.mpr ⟨value, h⟩)
  exact ⟨player, hkey⟩

theorem mem_players (hs : s.Tidy) {name : String} : name ∈ s.players houseTag ↔
    ∃ player, accountName player = name ∧ (s.find? (recordKey player houseTag)).isSome := by
  rw [players, List.mem_filterMap]
  constructor
  · rintro ⟨⟨key, value⟩, hmem, hname⟩
    obtain ⟨player, rfl⟩ := hs.player_of_mem hmem
    rw [playerOfKey?_recordKey] at hname
    exact ⟨player, Option.some.inj hname, isSome_find?_iff.mpr ⟨value, hmem⟩⟩
  · rintro ⟨player, rfl, hfound⟩
    obtain ⟨value, hmem⟩ := isSome_find?_iff.mp hfound
    exact ⟨_, hmem, playerOfKey?_recordKey player houseTag⟩

theorem nodup_players (hs : s.Tidy) : (s.players houseTag).Nodup := by
  refine List.pairwise_filterMap.mpr (hs.sorted.imp_of_mem ?_)
  rintro ⟨key, value⟩ ⟨key', value'⟩ hmem hmem' hlt name hname name' hname' rfl
  obtain ⟨player, rfl⟩ := hs.player_of_mem hmem
  obtain ⟨player', rfl⟩ := hs.player_of_mem hmem'
  simp only [playerOfKey?_recordKey, Option.some.injEq] at hname hname' hlt
  exact List.lt_irrefl _ (recordKey_inj.mpr (hname.trans hname'.symm) ▸ hlt)

/-- A name is listed in lower case, where it is the name of the same record. -/
theorem holdings_of_mem (hs : s.Tidy) {name : String} (h : name ∈ s.players houseTag) :
    ∃ k, s.holdings name = .ok (some k) := by
  obtain ⟨player, rfl, hfound⟩ := hs.mem_players.mp h
  refine hs.holdings ?_
  rwa [recordKey_inj.mpr (accountName_idem player)]

end Tidy

end Store

end HouseLease
