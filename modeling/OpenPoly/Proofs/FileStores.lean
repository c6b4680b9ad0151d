import OpenPoly.Lib.Except
import OpenPoly.Proofs.CanvasLock
import OpenPoly.Spec.FileStores

/-! What is in memory and what a fresh load of the file gives: a save that raises leaves
both as they were; a secret is set in memory first, and stays set where the write raises. -/

namespace OpenPoly

open Transition Results

section
variable {β : Type} (d : Disk β) (content : β) (faults : Faults)

/-- A save either replaces the file or leaves it. -/
theorem perform_save :
    ((d.perform content faults saveOps).2 = .ok () ∧ (d.perform content faults saveOps).1.file = content) ∨
      ((∃ exc, (d.perform content faults saveOps).2 = .error exc) ∧
        (d.perform content faults saveOps).1.file = d.file) := by
  simp only [saveOps, Disk.perform]
  split
  · exact .inr ⟨⟨_, rfl⟩, rfl⟩
  split
  · exact .inr ⟨⟨_, rfl⟩, rfl⟩
  split
  · exact .inr ⟨⟨_, rfl⟩, rfl⟩
  split
  · exact .inr ⟨⟨_, rfl⟩, rfl⟩
  split
  · exact .inr ⟨⟨_, rfl⟩, rfl⟩
  exact .inl ⟨rfl, rfl⟩

/-- The mode of the secrets' file is set once it is replaced: a write that raises may have
replaced it. -/
theorem perform_persist :
    ((d.perform content faults persistOps).2 = .ok () ∧ (d.perform content faults persistOps).1.file = content) ∨
      ((∃ op ∈ persistOps, (faults op).isSome) ∧
        ((d.perform content faults persistOps).1.file = d.file ∨
          (d.perform content faults persistOps).1.file = content)) := by
  have hfault : ∀ (op : FileOp) {exc : PyErr}, op ∈ persistOps → faults op = some exc →
      ∃ op ∈ persistOps, (faults op).isSome := fun op _ hop hexc => ⟨op, hop, hexc ▸ rfl⟩
  simp only [persistOps, Disk.perform] at hfault ⊢
  split
  · exact .inr ⟨hfault .mkdir (by decide) ‹_›, .inl rfl⟩
  split
  · exact .inr ⟨hfault .openTmp (by decide) ‹_›, .inl rfl⟩
  split
  · exact .inr ⟨hfault .write (by decide) ‹_›, .inl rfl⟩
  split
  · exact .inr ⟨hfault .fsync (by decide) ‹_›, .inl rfl⟩
  split
  · exact .inr ⟨hfault .replace (by decide) ‹_›, .inl rfl⟩
  split
  · exact .inr ⟨hfault .chmod (by decide) ‹_›, .inr rfl⟩
  exact .inl ⟨rfl, rfl⟩

end

def SameDict (d d' : PyDict) : Prop := (PyJson.obj d).sortKeys = (PyJson.obj d').sortKeys

theorem SameDict.symm {d d' : PyDict} (h : SameDict d d') : SameDict d' d := Eq.symm h

theorem SameDict.trans {d d' d'' : PyDict} (h : SameDict d d') (h' : SameDict d' d'') : SameDict d d'' := Eq.trans h h'

/-- The entries as `sort_keys=True` writes them. -/
def sortedDict (d : PyDict) : PyDict := (PyJson.sortEntries d).insertionSort keyLe

instance : Std.Total keyLe := ⟨fun a b => le_total (a.1.map PyChar.code) (b.1.map PyChar.code)⟩

instance : IsTrans (PyStr × PyJson) keyLe := ⟨fun _ _ _ h h' => le_trans h h'⟩

mutual

theorem sortKeys_sortKeys : (x : PyJson) → x.sortKeys.sortKeys = x.sortKeys
  | .null => rfl
  | .bool _ => rfl
  | .int _ => rfl
  | .float _ => rfl
  | .str _ => rfl
  | .arr xs => by
    simp only [PyJson.sortKeys, sortItems_eq, List.map_map, PyJson.arr.injEq]
    exact List.map_congr_left fun x hx => sortItems_sortKeys xs x hx
  | .obj d => by
    simp only [PyJson.sortKeys, PyJson.obj.injEq]
    have hfix : PyJson.sortEntries ((PyJson.sortEntries d).insertionSort keyLe) =
        (PyJson.sortEntries d).insertionSort keyLe := by
      rw [sortEntries_eq]
      refine (List.map_congr_left fun kv hkv => ?_).trans (List.map_id _)
      have hmem := (List.perm_insertionSort keyLe _).subset hkv
      rw [sortEntries_eq] at hmem
      obtain ⟨kv', hkv', rfl⟩ := List.mem_map.mp hmem
      exact congrArg (kv'.1, ·) (sortEntries_sortKeys d kv' hkv')
    rw [hfix]
    exact (List.pairwise_insertionSort keyLe _).insertionSort_eq

theorem sortItems_sortKeys : (xs : List PyJson) → ∀ x ∈ xs, x.sortKeys.sortKeys = x.sortKeys
  | [], _, h => nomatch h
  | x :: xs, y, h =>
    (List.mem_cons.mp h).elim (fun heq => heq ▸ sortKeys_sortKeys x) fun hmem => sortItems_sortKeys xs y hmem

theorem sortEntries_sortKeys : (d : List (PyStr × PyJson)) → ∀ kv ∈ d, kv.2.sortKeys.sortKeys = kv.2.sortKeys
  | [], _, h => nomatch h
  | kv :: d, kv', h =>
    (List.mem_cons.mp h).elim (fun heq => heq ▸ sortKeys_sortKeys kv.2) fun hmem => sortEntries_sortKeys d kv' hmem

end

theorem sameDict_sorted (d : PyDict) : SameDict (sortedDict d) d := sortKeys_sortKeys (.obj d)

theorem sortedDict_keys {d : PyDict} (h : (d.map Prod.fst).Nodup) : ((sortedDict d).map Prod.fst).Nodup := by
  unfold sortedDict
  rw [((List.perm_insertionSort keyLe _).map Prod.fst).nodup_iff, sortEntries_eq, List.map_map]
  exact h

/-- What `_persist` writes is loaded as it was. -/
theorem load_document {d : PyDict} (h : (d.map Prod.fst).Nodup) :
    loadSecrets (.json (secretsDocument d)) = .ok (sortedDict d) := by
  show Except.ok (dictOf (sortedDict d)) = _
  rw [dictOf_nodup (sortedDict_keys h)]

/-- What the file gives is what is in memory. -/
structure SecretStore.Synced (s : SecretStore) : Prop where
  keys : (s.cache.map Prod.fst).Nodup
  loads : ∃ d, loadSecrets s.disk.file = .ok d ∧ SameDict d s.cache

/-- Neither memory nor what the file gives has changed. -/
structure SecretStore.Unchanged (s s' : SecretStore) : Prop where
  memory : SameDict s'.cache s.cache
  file : ∃ d d', loadSecrets s.disk.file = .ok d ∧ loadSecrets s'.disk.file = .ok d' ∧ SameDict d' d

variable {s s' : SecretStore} {faults : Faults} {now : ℚ} {name value : PyJson}

theorem SecretStore.Synced.refl (h : s.Synced) : s.Unchanged s := by
  obtain ⟨d, hload, -⟩ := h.loads
  exact ⟨rfl, d, d, hload, hload, rfl⟩

/-- The entry of that name holds that value, and nothing but its time. -/
def SecretStore.Holds (s : SecretStore) (name value : PyJson) : Prop :=
  ∃ key text d created, name = .str key ∧ value = .str text ∧ s.cache.at? key = some (.obj d) ∧
    PyDict.get? d "created_at" = some created ∧ (PyJson.obj d).sortKeys = (secretEntry text created).sortKeys

def Faultless (faults : Faults) : Prop := ∀ op ∈ persistOps, faults op = none

theorem persist_faultless {d : PyDict} {disk : Disk SecretFile} (h : Faultless faults) :
    (SecretStore.persist ⟨d, disk⟩ faults).2 = .ok () ∧
      (SecretStore.persist ⟨d, disk⟩ faults).1.cache = d ∧
      (SecretStore.persist ⟨d, disk⟩ faults).1.disk.file = .json (secretsDocument d) := by
  rcases perform_persist disk (.json (secretsDocument d)) faults with ⟨hok, hfile⟩ | ⟨⟨op, hop, hsome⟩, -⟩
  · exact ⟨hok, rfl, hfile⟩
  · rw [h op hop] at hsome
    cases hsome

/-- A write of what the file gives already. -/
theorem persist_same {d : PyDict} (hs : s.Synced) (hkeys : (d.map Prod.fst).Nodup) (hsame : SameDict d s.cache) :
    (SecretStore.persist ⟨d, s.disk⟩ faults).1.Synced ∧ s.Unchanged (SecretStore.persist ⟨d, s.disk⟩ faults).1 := by
  obtain ⟨e, hload, hloaded⟩ := hs.loads
  have hfile : ∃ d', loadSecrets (SecretStore.persist ⟨d, s.disk⟩ faults).1.disk.file = .ok d' ∧ SameDict d' s.cache := by
    have hnew := load_document hkeys
    have hwritten := (sameDict_sorted d).trans hsame
    rcases perform_persist s.disk (.json (secretsDocument d)) faults with ⟨-, hfile⟩ | ⟨-, hfile | hfile⟩
    · exact ⟨_, hfile ▸ hnew, hwritten⟩
    · exact ⟨e, hfile ▸ hload, hloaded⟩
    · exact ⟨_, hfile ▸ hnew, hwritten⟩
  obtain ⟨d', hload', hloaded'⟩ := hfile
  exact ⟨⟨hkeys, d', hload', hloaded'.trans hsame.symm⟩, hsame, e, d', hload, hload', hloaded'.trans hloaded.symm⟩

theorem persist_synced {d : PyDict} {disk : Disk SecretFile} (h : Faultless faults) (hkeys : (d.map Prod.fst).Nodup) :
    (SecretStore.persist ⟨d, disk⟩ faults).1.Synced := by
  obtain ⟨hcache, hfile⟩ : (SecretStore.persist ⟨d, disk⟩ faults).1.cache = d ∧
      (SecretStore.persist ⟨d, disk⟩ faults).1.disk.file = .json (secretsDocument d) := (persist_faultless h).2
  refine ⟨hcache ▸ hkeys, sortedDict d, ?_, hcache ▸ sameDict_sorted d⟩
  rw [hfile]
  exact load_document hkeys

theorem at_mem {d : PyDict} {key : PyStr} {x : PyJson} (h : d.at? key = some x) : (key, x) ∈ d := by
  obtain ⟨kv, hkv, rfl⟩ := Option.map_eq_some_iff.mp h
  have hkey := List.find?_some hkv
  rw [← of_decide_eq_true hkey]
  exact List.mem_of_find?_eq_some hkv

/-- Setting the value an entry holds already. -/
theorem assign_same {d : PyDict} {key : PyStr} {x y : PyJson} (hkeys : (d.map Prod.fst).Nodup)
    (h : d.at? key = some x) (hxy : x.sortKeys = y.sortKeys) : SameDict (d.assign key y) d := by
  have hmem := at_mem h
  have hany : (d.any fun kv => kv.1 = key) = true := List.any_eq_true.mpr ⟨_, hmem, by simp⟩
  unfold SameDict PyDict.assign
  rw [if_pos hany]
  simp only [PyJson.sortKeys, sortEntries_eq, List.map_map]
  refine congrArg (fun e => PyJson.obj (List.insertionSort keyLe e)) (List.map_congr_left fun kv hkv => ?_)
  by_cases hkey : kv.1 = key
  · have heq : kv = (key, x) := List.inj_on_of_nodup_map hkeys hkv hmem hkey
    simp [heq, hxy]
  · simp [hkey]

theorem holds_created (h : s.Holds name value) {now : ℚ} {key text : PyStr} {created : PyJson}
    (hprepare : s.prepare now name value = .ok (key, text, created)) :
    ∃ x, s.cache.at? key = some x ∧ x.sortKeys = (secretEntry text created).sortKeys := by
  obtain ⟨key', text', d, created', rfl, rfl, hat, hget, hsame⟩ := h
  have hne : d.isEmpty = false := by
    cases d with
    | nil => simp [PyDict.get?] at hget
    | cons kv d => rfl
  have hcreated : createdAt now (some (.obj d)) = .ok created' := by
    simp [createdAt, Option.filter, PyJson.truthy, hne, hget]
  unfold SecretStore.prepare validateName at hprepare
  by_cases hvalid : validName key' = true
  · by_cases hempty : text' = []
    · simp [hvalid, hempty, bind, Except.bind] at hprepare
    · simp only [hvalid, if_true, bind, Except.bind, hempty, if_false] at hprepare
      rw [hat, hcreated] at hprepare
      cases hprepare
      exact ⟨_, hat, hsame⟩
  · simp [hvalid, bind, Except.bind] at hprepare

/-- The write of a request that is not refused goes through, or the value is there. -/
def Stores.Safe (s : Stores) : StoreOp → Prop
  | .setSecret now name value faults =>
    (∃ exc, s.secrets.prepare now name value = .error exc) ∨ Faultless faults ∨ s.secrets.Holds name value
  | .deleteSecret name faults =>
    (∀ key, validateName name = .ok key → s.secrets.cache.at? key = none) ∨ Faultless faults
  | .setMode _ _ _ => True
  | .setWallet _ _ => True

theorem set_synced (hs : s.Synced)
    (hsafe : (∃ exc, s.prepare now name value = .error exc) ∨ Faultless faults ∨ s.Holds name value) :
    (s.set now name value faults).1.Synced ∧
      ∀ exc, (s.set now name value faults).2 = .error exc → s.Unchanged (s.set now name value faults).1 := by
  unfold SecretStore.set
  cases hprepare : s.prepare now name value with
  | error exc => exact ⟨hs, fun _ _ => hs.refl⟩
  | ok prepared =>
    obtain ⟨key, text, created⟩ := prepared
    dsimp only
    have hkeys := nodup_assign hs.keys key (secretEntry text created)
    rcases hsafe with ⟨exc, hexc⟩ | hfaults | hholds
    · rw [hprepare] at hexc
      cases hexc
    · refine ⟨persist_synced hfaults hkeys, fun exc hexc => ?_⟩
      rw [(persist_faultless hfaults).1] at hexc
      cases hexc
    · obtain ⟨x, hat, hx⟩ := holds_created hholds hprepare
      exact And.imp_right (fun hunchanged _ _ => hunchanged) (persist_same hs hkeys (assign_same hs.keys hat hx))

theorem delete_synced (hs : s.Synced)
    (hsafe : (∀ key, validateName name = .ok key → s.cache.at? key = none) ∨ Faultless faults) :
    (s.delete name faults).1.Synced ∧
      ∀ exc, (s.delete name faults).2 = .error exc → s.Unchanged (s.delete name faults).1 := by
  unfold SecretStore.delete
  cases hname : validateName name with
  | error exc => exact ⟨hs, fun _ _ => hs.refl⟩
  | ok key =>
    dsimp only
    split_ifs with hat
    · exact ⟨hs, fun _ _ => hs.refl⟩
    · rcases hsafe with hnone | hfaults
      · rw [hnone key hname] at hat
        exact absurd rfl hat
      · have hkeys : ((s.cache.remove key).map Prod.fst).Nodup := (List.filter_sublist.map _).nodup hs.keys
        refine ⟨persist_synced hfaults hkeys, fun exc hexc => ?_⟩
        rw [(persist_faultless hfaults).1] at hexc
        cases hexc

variable {repr : Json → String} {r r' : RuntimeStore}

theorem load_payload (state : RuntimeState) : RuntimeState.load repr (.json state.payload) = .ok state := by
  obtain ⟨mode, wallet⟩ := state
  cases mode <;> cases wallet <;> rfl

/-- What the file gives is what is in memory, but for a mode that was not saved. -/
def RuntimeStore.Synced (repr : Json → String) (r : RuntimeStore) : Prop :=
  ∃ state, RuntimeState.load repr r.disk.file = .ok state ∧ state.wallet = r.state.wallet ∧
    (r.unsaved = false → state.execMode = r.state.execMode)

structure RuntimeStore.Unchanged (r r' : RuntimeStore) : Prop where
  memory : r'.state = r.state
  file : r'.disk.file = r.disk.file

theorem save_cases (r : RuntimeStore) (faults : Faults) :
    (r.save faults).1.state = r.state ∧ (r.save faults).1.unsaved = r.unsaved ∧
      (((r.save faults).2 = .ok () ∧ (r.save faults).1.disk.file = .json r.state.payload) ∨
        ((∃ exc, (r.save faults).2 = .error exc) ∧ (r.save faults).1.disk.file = r.disk.file)) :=
  ⟨rfl, rfl, perform_save r.disk _ faults⟩

theorem setMode_synced (h : r.Synced repr) (mode : String) (persist : Bool) (faults : Faults) :
    (r.setMode mode persist faults).1.Synced repr ∧
      ∀ exc, (r.setMode mode persist faults).2 = .error exc → r.Unchanged (r.setMode mode persist faults).1 := by
  unfold RuntimeStore.setMode
  cases ExecMode.ofText mode with
  | none => exact ⟨h, fun _ _ => ⟨rfl, rfl⟩⟩
  | some mode =>
    dsimp only
    obtain ⟨state, hload, hwallet, hmode⟩ := h
    split_ifs with hpersist
    · exact ⟨⟨state, hload, hwallet, fun h => by cases h⟩, fun _ h => by cases h⟩
    · obtain ⟨hstate, hunsaved, hsave⟩ :=
        save_cases { r with state := { r.state with execMode := mode } } faults
      generalize RuntimeStore.save { r with state := { r.state with execMode := mode } } faults = out at hstate hunsaved hsave ⊢
      obtain ⟨saved, result⟩ := out
      rcases hsave with ⟨rfl, hfile⟩ | ⟨⟨exc, rfl⟩, hfile⟩
      · refine ⟨⟨{ r.state with execMode := mode }, ?_, ?_, fun _ => ?_⟩, fun _ h => by cases h⟩
        · exact hfile ▸ load_payload _
        · exact hstate ▸ rfl
        · exact hstate ▸ rfl
      · have hback : { saved.state with execMode := r.state.execMode } = r.state := by rw [hstate]
        refine ⟨⟨state, hfile ▸ hload, ?_, fun h => ?_⟩, fun _ _ => ⟨hback, hfile⟩⟩
        · exact hwallet.trans (congrArg RuntimeState.wallet hback).symm
        · exact hmode (hunsaved ▸ h)

theorem setWallet_synced (h : r.Synced repr) (spec : Option WalletSpec) (faults : Faults) :
    (r.setWallet spec faults).1.Synced repr ∧
      ∀ exc, (r.setWallet spec faults).2 = .error exc → r.Unchanged (r.setWallet spec faults).1 := by
  unfold RuntimeStore.setWallet
  cases spec with
  | none => exact ⟨h, fun _ _ => ⟨rfl, rfl⟩⟩
  | some spec =>
    dsimp only
    obtain ⟨state, hload, hwallet, hmode⟩ := h
    obtain ⟨hstate, hunsaved, hsave⟩ := save_cases { r with state := { r.state with wallet := some spec } } faults
    generalize RuntimeStore.save { r with state := { r.state with wallet := some spec } } faults = out at hstate hunsaved hsave ⊢
    obtain ⟨saved, result⟩ := out
    rcases hsave with ⟨rfl, hfile⟩ | ⟨⟨exc, rfl⟩, hfile⟩
    · refine ⟨⟨{ r.state with wallet := some spec }, ?_, ?_, fun _ => ?_⟩, fun _ h => by cases h⟩
      · exact hfile ▸ load_payload _
      · exact hstate ▸ rfl
      · exact hstate ▸ rfl
    · have hback : { saved.state with wallet := r.state.wallet } = r.state := by rw [hstate]
      refine ⟨⟨state, hfile ▸ hload, hwallet, fun h => ?_⟩, fun _ _ => ⟨hback, hfile⟩⟩
      exact (hmode (hunsaved ▸ h)).trans (congrArg RuntimeState.execMode hback).symm

structure Stores.Synced (repr : Json → String) (s : Stores) : Prop where
  secrets : s.secrets.Synced
  runtime : s.runtime.Synced repr

structure Stores.Unchanged (s s' : Stores) : Prop where
  secrets : s.secrets.Unchanged s'.secrets
  runtime : s.runtime.Unchanged s'.runtime

theorem stores_step {s : Stores} (hs : s.Synced repr) {op : StoreOp} (hsafe : s.Safe op) :
    (s.step op).1.Synced repr ∧ ∀ exc, (s.step op).2 = .error exc → s.Unchanged (s.step op).1 := by
  cases op with
  | setSecret now name value faults =>
    obtain ⟨hsynced, hraised⟩ := set_synced hs.secrets hsafe
    refine ⟨⟨hsynced, hs.runtime⟩, fun exc hexc => ⟨?_, rfl, rfl⟩⟩
    cases hresult : (s.secrets.set now name value faults).2 with
    | error exc' => exact hraised exc' hresult
    | ok entry =>
      have hexc : Except.map (fun _ => ()) (s.secrets.set now name value faults).2 = .error exc := hexc
      rw [hresult] at hexc
      cases hexc
  | deleteSecret name faults =>
    obtain ⟨hsynced, hraised⟩ := delete_synced hs.secrets hsafe
    exact ⟨⟨hsynced, hs.runtime⟩, fun exc hexc => ⟨hraised exc hexc, rfl, rfl⟩⟩
  | setMode mode persist faults =>
    obtain ⟨hsynced, hraised⟩ := setMode_synced hs.runtime mode persist faults
    exact ⟨⟨hs.secrets, hsynced⟩, fun exc hexc => ⟨hs.secrets.refl, hraised exc hexc⟩⟩
  | setWallet spec faults =>
    obtain ⟨hsynced, hraised⟩ := setWallet_synced hs.runtime spec faults
    exact ⟨⟨hs.secrets, hsynced⟩, fun exc hexc => ⟨hs.secrets.refl, hraised exc hexc⟩⟩

theorem stores_boot {secrets : Disk SecretFile} {runtime : Disk StateFile} {s : Stores}
    (h : Stores.boot repr secrets runtime = .ok s) : s.Synced repr := by
  unfold Stores.boot at h
  obtain ⟨cache, hcache, h⟩ := except_bind_ok h
  obtain ⟨state, hstate, h⟩ := except_bind_ok h
  cases h
  refine ⟨⟨?_, cache, hcache, rfl⟩, state, hstate, rfl, fun _ => rfl⟩
  show (cache.map Prod.fst).Nodup
  unfold loadSecrets at hcache
  split at hcache
  · cases hcache; exact List.nodup_nil
  · cases hcache; exact List.nodup_nil
  · cases hcache
  · split at hcache
    · cases hcache; exact (dictOf_spec _).1
    · cases hcache; exact List.nodup_nil
  · cases hcache

/-- Over every run whose secret writes go through, or set what is there, a fresh load gives
what is in memory, and an operation that raised has changed neither. -/
theorem stores_reload {secrets : Disk SecretFile} {runtime : Disk StateFile} {s₀ s : Stores} {ops : List StoreOp}
    (hboot : Stores.boot repr secrets runtime = .ok s₀)
    (run : Run (guarded Stores.Safe fun s op s' => s' = (s.step op).1) s₀ ops s) :
    s.Synced repr ∧ ∀ op exc, s.Safe op → (s.step op).2 = .error exc → s.Unchanged (s.step op).1 := by
  have hs : s.Synced repr := by
    refine run.invariant (fun s op s' hs hstep => ?_) (stores_boot hboot)
    obtain ⟨hsafe, rfl⟩ := hstep
    exact (stores_step hs hsafe).1
  exact ⟨hs, fun op exc hsafe hexc => (stores_step hs hsafe).2 exc hexc⟩

def noFault : Faults := fun _ => none

def faultAt (op : FileOp) : Faults := fun op' => if op' = op then some (.other "OSError") else none

def pyText (s : String) : PyJson := .str (.of s)

def freshStores : Stores := ⟨⟨[], ⟨.missing, none⟩⟩, { state := {}, disk := ⟨.missing, none⟩ }⟩

def firstSecret (faults : Faults) : StoreOp := .setSecret 5 (pyText "a/b") (pyText "k") faults

theorem stores_reload_sample :
    ∃ s, Run (guarded Stores.Safe fun s op s' => s' = (s.step op).1) freshStores
        [firstSecret noFault, firstSecret (faultAt .chmod), .setMode "live" true (faultAt .replace)] s ∧
      s.Synced (fun _ => "") ∧
      ∀ op exc, s.Safe op → (s.step op).2 = .error exc → s.Unchanged (s.step op).1 := by
  have hset : (freshStores.step (firstSecret noFault)).1.Safe (firstSecret (faultAt .chmod)) :=
    .inr (.inr ⟨.of "a/b", .of "k", _, .float (.fin 5), rfl, rfl, rfl, rfl, rfl⟩)
  have hrun : Run (guarded Stores.Safe fun s op s' => s' = (s.step op).1) freshStores
      [firstSecret noFault, firstSecret (faultAt .chmod), .setMode "live" true (faultAt .replace)] _ :=
    .cons ⟨.inr (.inl fun _ _ => rfl), rfl⟩ (.cons ⟨hset, rfl⟩ (.single ⟨trivial, rfl⟩))
  have hboot : Stores.boot (fun _ => "") ⟨.missing, none⟩ ⟨.missing, none⟩ = .ok freshStores := rfl
  exact ⟨_, hrun, stores_reload hboot hrun⟩

/-- A secret whose write fails at its first step is there until the restart. -/
theorem failed_secret_is_lost :
    ∃ s, Run (fun (s : Stores) op s' => s' = (s.step op).1) freshStores [firstSecret (faultAt .mkdir)] s ∧
      (s.secrets.cache.at? (.of "a/b")).isSome = true ∧ loadSecrets s.secrets.disk.file = .ok [] ∧
      ¬ s.Synced fun _ => "" := by
  refine ⟨_, .single rfl, rfl, rfl, fun h => ?_⟩
  obtain ⟨d, hload, hsame⟩ := h.secrets.loads
  cases hload
  cases hsame

end OpenPoly
