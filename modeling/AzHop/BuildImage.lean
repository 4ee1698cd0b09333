import AzHop.Lib.Shell
import AzHop.Lib.Objects
/-!
# Building an image and pushing it to the gallery

`build_image.sh` compares the checksum of the packer file and its scripts with
the tag of the managed image, rebuilds the image when they differ, pushes a
version to the gallery when the version of the tag is not there, and tags the
image with both. Any command may fail, and the next run starts from the tags
and the versions that run has left.

`convergence` is about any number of runs with edits in between. What the
image was built from and what a version was pushed from are kept in the model
only; the script sees the tags.
-/
namespace AzHop.BuildImage
open Lib.Shell Lib.Objects

variable {Source : Type}

/-- The managed image: what packer built it from, and its tags. -/
structure Image (Source : Type) where
  source : Source
  checksum : Option String := none
  Version : Option String := none

/-- The part of the resource group and the gallery that concerns one image. -/
structure Azure (Source : Type) where
  image : Option (Image Source)
  osDisk : Bool
  definition : Bool
  /-- The versions of the gallery, with what the image they were pushed from was built from. -/
  versions : List (String × Source)

/-- What a failed `packer build -force` leaves of the image. -/
inductive Leftover
  | old
  | nothing
  | new

inductive Packer
  | ok
  | failed (left : Leftover) (osDisk : Bool)

/-- The commands that only ask, in the order of the script. -/
inductive Ask
  | account
  | image_list
  | checksum_show
  | environment
  | key_vault
  | disk_list
  | plugins
  | built_list
  | definition_list
  | definition_config
  | definition_relist
  | source_list
  | version_show
  | version_list
  | storage_show
  | kept_disk_list

/-- One run: the files as they are, the options, the clock and how its commands end. -/
structure Run (Source : Type) where
  source : Source
  force : Bool := false
  keep : Bool := false
  timestamp : String
  answers : Ask → Bool := fun _ => true
  disk_delete : Outcome := .ok
  packer : Packer := .ok
  checksum_tag : Outcome := .ok
  definition_create : Outcome := .ok
  version_create : Outcome := .ok
  version_tag : Outcome := .ok
  disk_update : Outcome := .ok

/-! ## The script -/

section
variable (checksum : Source → String) (r : Run Source)

/-- `az image show`, an error when there is no image. -/
def image_show {α : Type} (ask : Ask) (read : Image Source → α) : Script (Azure Source) α := do
  match ← query (r.answers ask) (·.image) with
  | some image => return read image
  | none => throw ()

/-- `az image update --tags`, which replaces all tags. -/
def image_update (o : Outcome) (checksum Version : Option String) : Script (Azure Source) Unit :=
  command o fun w => { w with image := w.image.map fun image => { image with checksum, Version } }

/-- An image whose checksum is another one is rebuilt; md5sum never prints the
empty text, which is what a missing tag gives. -/
def forced (image_id : Bool) : Script (Azure Source) Bool := do
  if image_id then
    let image_checksum ← image_show r .checksum_show (·.checksum)
    return r.force || image_checksum != some (checksum r.source)
  else return r.force

/-- A new image has no tags. With `-force` an existing one is deleted first. -/
def packer_build : Script (Azure Source) Unit :=
  match r.packer with
  | .ok => modify fun w => { w with image := some { source := r.source }, osDisk := r.keep }
  | .failed left osDisk => do
    modify fun w => { w with
      image := match left with
        | .old => w.image
        | .nothing => none
        | .new => some { source := r.source }
      osDisk }
    throw ()

def build : Script (Azure Source) Unit := do
  query (r.answers .environment) fun _ => ()
  query (r.answers .key_vault) fun _ => ()
  let os_disk_id ← query (r.answers .disk_list) (·.osDisk)
  when os_disk_id (command r.disk_delete fun w => { w with osDisk := false })
  query (r.answers .plugins) fun _ => ()
  packer_build r
  query (r.answers .built_list) fun _ => ()
  image_update r.checksum_tag (some (checksum r.source)) none

def create_definition : Script (Azure Source) Unit := do
  query (r.answers .definition_config) fun _ => ()
  command r.definition_create fun w => { w with definition := true }
  query (r.answers .definition_relist) fun _ => ()

def image_definition : Script (Azure Source) Unit := do
  let img_def_id ← query (r.answers .definition_list) (·.definition)
  when (!img_def_id) (create_definition r)

/-- `az sig image-version create --managed-image`. -/
def image_version_create : Script (Azure Source) Unit :=
  command r.version_create fun w =>
    match w.image with
    | some image => { w with versions := w.versions ++ [(r.timestamp, image.source)] }
    | none => w

/-- `az disk update` without an id is an error. -/
def tag_disk : Script (Azure Source) Unit := do
  let os_disk_id ← query (r.answers .kept_disk_list) (·.osDisk)
  if os_disk_id then command r.disk_update id else throw ()

def push : Script (Azure Source) Unit := do
  image_show r .storage_show fun _ => ()
  image_version_create r
  image_update r.version_tag (some (checksum r.source)) (some r.timestamp)
  when r.keep (tag_disk r)

/-- An image without the tag asks for the empty name, which no version has. -/
def push_version (FORCE : Bool) : Script (Azure Source) Unit := do
  query (r.answers .source_list) fun _ => ()
  let image_version ← image_show r .version_show (·.Version)
  let img_version_id ← query (r.answers .version_list) fun w => image_version.any (· ∈ keys w.versions)
  when (!img_version_id || FORCE) (push checksum r)

def build_image : Script (Azure Source) Unit := do
  query (r.answers .account) fun _ => ()
  let image_id ← query (r.answers .image_list) (·.image.isSome)
  let FORCE ← forced checksum r image_id
  when (!image_id || FORCE) (build checksum r)
  image_definition r
  push_version checksum r FORCE

end

/-! ## What every state satisfies -/

section
variable {checksum : Source → String} {r : Run Source} {stamps : List String}

/-- The tags tell the truth: a checksum is that of what the image was built
from, and a version was pushed from just that. Every version carries the time
of one of the runs. -/
structure Inv (checksum : Source → String) (stamps : List String) (w : Azure Source) : Prop where
  checksum_tag : ∀ i s, w.image = some i → i.checksum = some s → s = checksum i.source
  version_tag : ∀ i v, w.image = some i → i.Version = some v → get? w.versions v = some i.source
  stamped : ∀ v ∈ keys w.versions, v ∈ stamps

/-- The image is built from files with the checksum of the current ones. -/
def Current (checksum : Source → String) (r : Run Source) (w : Azure Source) : Prop :=
  ∃ i, w.image = some i ∧ checksum i.source = checksum r.source

/-- The gallery has a version pushed from such an image, the one of its tag. -/
def Converged (checksum : Source → String) (r : Run Source) (w : Azure Source) : Prop :=
  ∃ i v, w.image = some i ∧ i.Version = some v ∧ get? w.versions v = some i.source ∧
    checksum i.source = checksum r.source

theorem inv_of_no_image {w : Azure Source} (hi : w.image = none) (hs : ∀ v ∈ keys w.versions, v ∈ stamps) :
    Inv checksum stamps w := by
  refine ⟨fun i s h => ?_, fun i v h => ?_, hs⟩ <;> rw [hi] at h <;> cases h

/-- An image fresh from packer. -/
theorem inv_of_untagged {w : Azure Source} {source : Source} (hi : w.image = some { source })
    (hs : ∀ v ∈ keys w.versions, v ∈ stamps) : Inv checksum stamps w := by
  refine ⟨fun i s h => ?_, fun i v h => ?_, hs⟩ <;> rw [hi] at h <;> cases h <;> exact nofun

/-- What does not touch the image and the versions keeps the invariant. -/
theorem Inv.congr {w w' : Azure Source} (h : Inv checksum stamps w) (hi : w'.image = w.image)
    (hv : w'.versions = w.versions) : Inv checksum stamps w' := by
  refine ⟨fun i s h' => ?_, fun i v h' => ?_, ?_⟩
  · exact h.checksum_tag i s (hi ▸ h')
  · rw [hv]
    exact h.version_tag i v (hi ▸ h')
  · rw [hv]
    exact h.stamped

/-! ## One lemma for each part -/

theorem image_show_spec {α : Type} {ask : Ask} {read : Image Source → α} {P : Azure Source → Prop} :
    Triple P (image_show r ask read) (fun a w => P w ∧ ∃ i, w.image = some i ∧ a = read i) P := by
  apply triple_bind (Q := fun image w => P w ∧ image = w.image)
  · exact triple_query (fun w hw => ⟨hw, rfl⟩) (fun w hw => hw)
  · intro image
    cases image with
    | none => exact triple_throw fun w hw => hw.1
    | some i => exact triple_pure fun w hw => ⟨hw.1, i, hw.2.symm, rfl⟩

/-- Without FORCE an image that is there is current. -/
theorem forced_spec {image_id : Bool} :
    Triple (fun w => Inv checksum stamps w ∧ w.image.isSome = image_id) (forced checksum r image_id)
      (fun FORCE w => Inv checksum stamps w ∧ (image_id = true → FORCE = false → Current checksum r w))
      (Inv checksum stamps) := by
  cases image_id with
  | false => exact triple_pure fun w hw => ⟨hw.1, fun h => nomatch h⟩
  | true =>
    apply triple_bind (triple_conseq image_show_spec (fun w hw => hw) (fun a w hw => hw) (fun w hw => hw.1))
    intro image_checksum
    apply triple_pure
    rintro w ⟨⟨hw, -⟩, i, hi, rfl⟩
    refine ⟨hw, fun _ hf => ⟨i, hi, ?_⟩⟩
    have hc : i.checksum = some (checksum r.source) := by
      simpa using (Bool.or_eq_false_iff.1 hf).2
    exact (hw.checksum_tag i _ hi hc).symm

/-- Whatever packer leaves satisfies the invariant. -/
theorem packer_build_spec : Triple (Inv checksum stamps) (packer_build r)
    (fun _ w => Inv checksum stamps w ∧ w.image = some { source := r.source }) (Inv checksum stamps) := by
  unfold packer_build
  cases r.packer with
  | ok => exact fun w hw => ⟨inv_of_untagged rfl hw.stamped, rfl⟩
  | failed left osDisk =>
    intro w hw
    cases left with
    | old => exact hw.congr rfl rfl
    | nothing => exact inv_of_no_image rfl hw.stamped
    | new => exact inv_of_untagged rfl hw.stamped

/-- The first tagging: the checksum of the current files on the image built from them. -/
theorem checksum_tag_spec {o : Outcome} : Triple
    (fun w => Inv checksum stamps w ∧ w.image = some { source := r.source })
    (image_update o (some (checksum r.source)) none)
    (fun _ w => Inv checksum stamps w ∧ Current checksum r w) (Inv checksum stamps) := by
  have htag : ∀ w : Azure Source, Inv checksum stamps w → w.image = some { source := r.source } →
      Inv checksum stamps { w with image := w.image.map fun image =>
        { image with checksum := some (checksum r.source), Version := none } } := by
    intro w hw hi
    refine ⟨fun i s h => ?_, fun i v h => ?_, hw.stamped⟩ <;> rw [hi] at h <;> cases h
    · exact fun h => (Option.some.inj h).symm
    · exact nofun
  apply triple_command
  · rintro w ⟨hw, hi⟩
    exact ⟨htag w hw hi, _, by rw [hi]; rfl, rfl⟩
  · rintro w ⟨hw, hi⟩
    exact ⟨hw, htag w hw hi⟩

theorem build_spec : Triple (Inv checksum stamps) (build checksum r)
    (fun _ w => Inv checksum stamps w ∧ Current checksum r w) (Inv checksum stamps) := by
  unfold build
  apply triple_bind (triple_ask fun w hw => hw) fun _ => ?_
  apply triple_bind (triple_ask fun w hw => hw) fun _ => ?_
  apply triple_bind (triple_ask fun w hw => hw) fun os_disk_id => ?_
  have hdelete : Triple (Inv checksum stamps) (when os_disk_id (command r.disk_delete fun w => { w with osDisk := false }))
      (fun _ => Inv checksum stamps) (Inv checksum stamps) :=
    triple_when (fun _ => triple_command (fun w hw => hw.congr rfl rfl) fun w hw => ⟨hw, hw.congr rfl rfl⟩)
      fun _ w hw => hw
  apply triple_bind hdelete fun _ => ?_
  apply triple_bind (triple_ask fun w hw => hw) fun _ => ?_
  apply triple_bind packer_build_spec fun _ => ?_
  apply triple_bind (triple_ask fun w hw => hw.1) fun _ => checksum_tag_spec

theorem image_definition_spec : Triple (fun w => Inv checksum stamps w ∧ Current checksum r w) (image_definition r)
    (fun _ w => Inv checksum stamps w ∧ Current checksum r w) (Inv checksum stamps) := by
  apply triple_bind (triple_ask fun w hw => hw.1) fun img_def_id => ?_
  apply triple_when
  · intro _
    apply triple_bind (triple_ask fun w hw => hw.1) fun _ => ?_
    have hcreate : Triple (fun w => Inv checksum stamps w ∧ Current checksum r w)
        (command r.definition_create fun w : Azure Source => { w with definition := true })
        (fun _ w => Inv checksum stamps w ∧ Current checksum r w) (Inv checksum stamps) :=
      triple_command (fun w hw => ⟨hw.1.congr rfl rfl, hw.2⟩) fun w hw => ⟨hw.1, hw.1.congr rfl rfl⟩
    exact triple_bind hcreate fun _ => triple_ask fun w hw => hw.1
  · exact fun _ w hw => hw

/-- More runs, more times. -/
theorem Inv.mono {w : Azure Source} {more : List String} (h : Inv checksum stamps w) :
    Inv checksum (stamps ++ more) w :=
  ⟨h.checksum_tag, h.version_tag, fun v hv => List.mem_append_left _ (h.stamped v hv)⟩

/-- The gallery has the version of this run, pushed from the current image. -/
def Pushed (checksum : Source → String) (r : Run Source) (w : Azure Source) : Prop :=
  ∃ i, w.image = some i ∧ get? w.versions r.timestamp = some i.source ∧ checksum i.source = checksum r.source

theorem image_version_create_spec (hfresh : r.timestamp ∉ stamps) : Triple
    (fun w => Inv checksum stamps w ∧ Current checksum r w) (image_version_create r)
    (fun _ w => Inv checksum (stamps ++ [r.timestamp]) w ∧ Pushed checksum r w)
    (Inv checksum (stamps ++ [r.timestamp])) := by
  have hpush : ∀ {w : Azure Source} {i : Image Source}, Inv checksum stamps w → w.image = some i →
      Inv checksum (stamps ++ [r.timestamp]) { w with versions := w.versions ++ [(r.timestamp, i.source)] } := by
    intro w i hw _
    refine ⟨hw.checksum_tag, fun j v hj hv => ?_, fun v hv => ?_⟩
    · rw [get?_append, hw.version_tag j v hj hv, Option.some_or]
    · rw [keys_append, List.mem_append] at hv
      refine hv.elim (fun hv => List.mem_append_left _ (hw.stamped v hv)) fun hv => ?_
      rw [List.mem_singleton.1 hv]
      exact List.mem_append_right _ List.mem_cons_self
  unfold image_version_create
  apply triple_command
  · rintro w ⟨hw, i, hi, hc⟩
    simp only [hi]
    refine ⟨hi ▸ hpush hw hi, i, rfl, ?_, hc⟩
    rw [get?_append, get?_of_not_mem fun hv => hfresh (hw.stamped _ hv)]
    simp [get?]
  · rintro w ⟨hw, i, hi, -⟩
    simp only [hi]
    exact ⟨hw.mono, hi ▸ hpush hw hi⟩

/-- The second tagging. -/
theorem version_tag_spec {o : Outcome} : Triple
    (fun w => Inv checksum stamps w ∧ Pushed checksum r w)
    (image_update o (some (checksum r.source)) (some r.timestamp))
    (fun _ w => Inv checksum stamps w ∧ Converged checksum r w) (Inv checksum stamps) := by
  have htag : ∀ {w : Azure Source} {i : Image Source}, Inv checksum stamps w → w.image = some i →
      get? w.versions r.timestamp = some i.source → checksum i.source = checksum r.source →
      Inv checksum stamps { w with image := w.image.map fun image =>
        { image with checksum := some (checksum r.source), Version := some r.timestamp } } := by
    intro w i hw hi hv hc
    refine ⟨fun j s hj => ?_, fun j v hj => ?_, hw.stamped⟩ <;> rw [hi] at hj <;> cases hj
    · exact fun hs => (Option.some.inj hs).symm.trans hc.symm
    · intro hs
      cases hs
      exact hv
  apply triple_command
  · rintro w ⟨hw, i, hi, hv, hc⟩
    exact ⟨htag hw hi hv hc, { i with checksum := some (checksum r.source), Version := some r.timestamp }, r.timestamp,
      by rw [hi]; rfl, rfl, hv, hc⟩
  · rintro w ⟨hw, i, hi, hv, hc⟩
    exact ⟨hw, htag hw hi hv hc⟩

theorem tag_disk_spec {P : Azure Source → Prop} : Triple P (tag_disk r) (fun _ => P) P := by
  apply triple_bind (triple_ask fun w hw => hw) fun os_disk_id => ?_
  apply triple_ite
  · exact fun _ => triple_command (fun w hw => hw) fun w hw => ⟨hw, hw⟩
  · exact fun _ => triple_throw fun w hw => hw

theorem push_spec (hfresh : r.timestamp ∉ stamps) : Triple
    (fun w => Inv checksum stamps w ∧ Current checksum r w) (push checksum r)
    (fun _ w => Inv checksum (stamps ++ [r.timestamp]) w ∧ Converged checksum r w)
    (Inv checksum (stamps ++ [r.timestamp])) := by
  unfold push
  apply triple_bind (triple_conseq image_show_spec (fun w hw => hw) (fun _ w hw => hw.1) fun w hw => hw.1.mono) fun _ => ?_
  apply triple_bind (image_version_create_spec hfresh) fun _ => ?_
  apply triple_bind version_tag_spec fun _ => ?_
  apply triple_when
  · exact fun _ => triple_conseq tag_disk_spec (fun w hw => hw) (fun _ w hw => hw) fun w hw => hw.1
  · exact fun _ w hw => hw

/-- A version that is found is the one that was pushed from this image. -/
theorem push_version_spec {FORCE : Bool} (hfresh : r.timestamp ∉ stamps) : Triple
    (fun w => Inv checksum stamps w ∧ Current checksum r w) (push_version checksum r FORCE)
    (fun _ w => Inv checksum (stamps ++ [r.timestamp]) w ∧ Converged checksum r w)
    (Inv checksum (stamps ++ [r.timestamp])) := by
  unfold push_version
  apply triple_bind (triple_ask fun w hw => hw.1.mono) fun _ => ?_
  apply triple_bind (triple_conseq image_show_spec (fun w hw => hw) (fun _ w hw => hw) fun w hw => hw.1.mono)
  intro image_version
  apply triple_bind (Q := fun img_version_id w => (Inv checksum stamps w ∧ Current checksum r w) ∧
    (img_version_id = true → Converged checksum r w))
  · apply triple_query
    · rintro w ⟨⟨hw, i, hi, hc⟩, j, hj, rfl⟩
      rw [hi] at hj
      cases hj
      refine ⟨⟨hw, i, hi, hc⟩, fun hv => ?_⟩
      obtain ⟨v, hv, -⟩ := (Option.any_eq_true _ _).1 hv
      exact ⟨i, v, hi, hv, hw.version_tag i v hi hv, hc⟩
    · exact fun w hw => hw.1.1.mono
  · intro img_version_id
    apply triple_when
    · exact fun _ => triple_conseq (push_spec hfresh) (fun w hw => hw.1) (fun _ w hw => hw) fun w hw => hw
    · intro h w hw
      have hid : img_version_id = true := by
        cases img_version_id with
        | true => rfl
        | false => cases h
      exact ⟨hw.1.1.mono, hw.2 hid⟩

/-- One run, from any state earlier runs may have left. -/
theorem build_image_spec (hfresh : r.timestamp ∉ stamps) : Triple (Inv checksum stamps) (build_image checksum r)
    (fun _ w => Inv checksum (stamps ++ [r.timestamp]) w ∧ Converged checksum r w)
    (Inv checksum (stamps ++ [r.timestamp])) := by
  unfold build_image
  apply triple_bind (triple_ask fun w hw => hw.mono) fun _ => ?_
  apply triple_bind (Q := fun image_id w => Inv checksum stamps w ∧ w.image.isSome = image_id)
  · exact triple_query (fun w hw => ⟨hw, rfl⟩) fun w hw => hw.mono
  intro image_id
  apply triple_bind (triple_conseq forced_spec (fun w hw => hw) (fun _ w hw => hw) fun w hw => hw.mono)
  intro FORCE
  have hbuild : Triple
      (fun w => Inv checksum stamps w ∧ (image_id = true → FORCE = false → Current checksum r w))
      (when (!image_id || FORCE) (build checksum r))
      (fun _ w => Inv checksum stamps w ∧ Current checksum r w) (Inv checksum (stamps ++ [r.timestamp])) := by
    apply triple_when
    · exact fun _ => triple_conseq build_spec (fun w hw => hw.1) (fun _ w hw => hw) fun w hw => hw.mono
    · intro h w hw
      obtain ⟨hid, hf⟩ := Bool.or_eq_false_iff.1 h
      exact ⟨hw.1, hw.2 (by simpa using hid) hf⟩
  apply triple_bind hbuild fun _ => ?_
  apply triple_bind (triple_conseq image_definition_spec (fun w hw => hw) (fun _ w hw => hw) fun w hw => hw.mono)
  exact fun _ => push_version_spec hfresh

/-! ## Any number of runs -/

/-- Nothing has been built or pushed yet. -/
def start (osDisk definition : Bool) : Azure Source := { image := none, osDisk, definition, versions := [] }

theorem inv_start (osDisk definition : Bool) : Inv checksum [] (start osDisk definition : Azure Source) :=
  inv_of_no_image rfl fun _ hv => absurd hv List.not_mem_nil

theorem fresh_of_nodup {rs : List (Run Source)} (hd : ((rs ++ [r]).map (·.timestamp)).Nodup) :
    (rs.map (·.timestamp)).Nodup ∧ r.timestamp ∉ rs.map (·.timestamp) := by
  rw [List.map_append, List.map_singleton] at hd
  obtain ⟨hrs, -, hdisj⟩ := List.nodup_append.1 hd
  exact ⟨hrs, fun hm => hdisj _ hm _ List.mem_cons_self rfl⟩

theorem runs_inv (osDisk definition : Bool) (rs : List (Run Source)) (hd : (rs.map (·.timestamp)).Nodup) :
    Inv checksum (rs.map (·.timestamp)) (after (build_image checksum) rs (start osDisk definition)) := by
  refine after_inv (fun rs w => (rs.map (·.timestamp)).Nodup → Inv checksum (rs.map (·.timestamp)) w)
    (fun _ => inv_start osDisk definition) ?_ rs hd
  intro rs r
  by_cases hd : ((rs ++ [r]).map (·.timestamp)).Nodup
  · obtain ⟨hrs, hfresh⟩ := fresh_of_nodup hd
    rw [List.map_append, List.map_singleton]
    exact triple_conseq (build_image_spec hfresh) (fun w hw => hw hrs) (fun _ w hw _ => hw.1) fun w hw _ => hw
  · exact triple_of_forall (fun _ _ h => absurd h hd) fun _ h => absurd h hd

/-- A run that exits 0 leaves the gallery with a version of what the files are now. -/
theorem convergence (checksum : Source → String) (osDisk definition : Bool) (rs : List (Run Source)) (r : Run Source)
    (hd : ((rs ++ [r]).map (·.timestamp)).Nodup)
    (hok : (exec (build_image checksum r) (after (build_image checksum) rs (start osDisk definition))).1 = .ok ()) :
    Converged checksum r (after (build_image checksum) (rs ++ [r]) (start osDisk definition)) := by
  obtain ⟨hrs, hfresh⟩ := fresh_of_nodup hd
  have hpost := (build_image_spec hfresh).post (runs_inv osDisk definition rs hrs) hok
  unfold after at hpost ⊢
  rw [List.foldl_append, List.foldl_cons, List.foldl_nil]
  exact hpost.2

end

/-! ## Recovery -/

/-- A run none of whose commands fails, without the option to keep the disk. -/
structure Clean (r : Run Source) : Prop where
  answers : ∀ a, r.answers a = true
  disk_delete : r.disk_delete = .ok
  packer : r.packer = .ok
  checksum_tag : r.checksum_tag = .ok
  definition_create : r.definition_create = .ok
  version_create : r.version_create = .ok
  version_tag : r.version_tag = .ok
  not_kept : r.keep = false

def HasImage (w : Azure Source) : Prop := w.image.isSome = true

section
variable {checksum : Source → String} {r : Run Source}

theorem ask_clean {α : Type} {ask : Ask} {read : Azure Source → α} {P : Azure Source → Prop} (hr : Clean r) :
    Triple P (query (r.answers ask) read) (fun _ => P) fun _ => False :=
  triple_answered (hr.answers ask) fun _ hw => hw

theorem hasImage_update {o : Outcome} {checksum Version : Option String} (ho : o = .ok) :
    Triple HasImage (image_update o checksum Version : Script (Azure Source) Unit) (fun _ => HasImage) fun _ => False :=
  triple_done ho fun w hw => by
    unfold HasImage at hw ⊢
    rw [Option.isSome_map]
    exact hw

theorem image_show_clean {α : Type} {ask : Ask} {read : Image Source → α} (hr : Clean r) :
    Triple HasImage (image_show r ask read) (fun _ => HasImage) fun _ => False := by
  apply triple_bind (Q := fun image w => image = w.image ∧ HasImage w)
  · exact triple_answered (hr.answers ask) fun w hw => ⟨rfl, hw⟩
  · intro image
    cases image with
    | some i => exact triple_pure fun w hw => hw.2
    | none =>
      apply triple_throw
      rintro w ⟨hi, hw⟩
      rw [HasImage, ← hi] at hw
      cases hw

theorem build_clean (hr : Clean r) :
    Triple (fun _ => True) (build checksum r) (fun _ => HasImage) fun _ => False := by
  unfold build
  apply triple_bind (ask_clean hr) fun _ => ?_
  apply triple_bind (ask_clean hr) fun _ => ?_
  apply triple_bind (ask_clean hr) fun os_disk_id => ?_
  apply triple_bind (Q := fun _ _ => True)
  · exact triple_when (fun _ => triple_done hr.disk_delete fun w hw => hw) fun _ w hw => hw
  intro _
  apply triple_bind (ask_clean hr) fun _ => ?_
  apply triple_bind (Q := fun _ => HasImage)
  · unfold packer_build
    rw [hr.packer]
    exact fun w _ => rfl
  intro _
  exact triple_bind (ask_clean hr) fun _ => hasImage_update hr.checksum_tag

theorem definition_clean (hr : Clean r) : Triple HasImage (image_definition r) (fun _ => HasImage) fun _ => False := by
  apply triple_bind (ask_clean hr) fun img_def_id => ?_
  apply triple_when
  · intro _
    apply triple_bind (ask_clean hr) fun _ => ?_
    apply triple_bind (Q := fun _ => HasImage)
    · exact triple_done hr.definition_create fun w hw => hw
    exact fun _ => ask_clean hr
  · exact fun _ w hw => hw

theorem push_version_clean {FORCE : Bool} (hr : Clean r) :
    Triple HasImage (push_version checksum r FORCE) (fun _ => HasImage) fun _ => False := by
  apply triple_bind (ask_clean hr) fun _ => ?_
  apply triple_bind (image_show_clean hr) fun _ => ?_
  apply triple_bind (ask_clean hr) fun img_version_id => ?_
  apply triple_when
  · intro _
    unfold push
    apply triple_bind (image_show_clean hr) fun _ => ?_
    apply triple_bind (Q := fun _ => HasImage)
    · apply triple_done hr.version_create
      intro w hw
      split
      · exact hw
      · exact hw
    intro _
    apply triple_bind (hasImage_update hr.version_tag) fun _ => ?_
    rw [hr.not_kept]
    exact triple_pure fun w hw => hw
  · exact fun _ w hw => hw

/-- Whatever earlier runs have left, a run without failures gets to its end. -/
theorem clean_run_succeeds (hr : Clean r) (w : Azure Source) : Succeeds (build_image checksum r) w := by
  have hrun : Triple (fun _ => True) (build_image checksum r) (fun _ => HasImage) fun _ => False := by
    unfold build_image
    apply triple_bind (ask_clean hr) fun _ => ?_
    apply triple_bind (Q := fun image_id w => w.image.isSome = image_id)
    · exact triple_answered (hr.answers _) fun w _ => rfl
    intro image_id
    have hforced : Triple (fun w => w.image.isSome = image_id) (forced checksum r image_id)
        (fun _ w => image_id = true → HasImage w) fun _ => False := by
      cases image_id with
      | false => exact triple_pure fun w _ h => nomatch h
      | true => exact triple_bind (image_show_clean hr) fun _ => triple_pure fun w hw _ => hw
    apply triple_bind hforced fun FORCE => ?_
    apply triple_bind (Q := fun _ => HasImage)
    · apply triple_when
      · exact fun _ => triple_conseq (build_clean hr) (fun _ _ => trivial) (fun _ w hw => hw) fun _ h => h
      · exact fun h w hw => hw (by simpa using (Bool.or_eq_false_iff.1 h).1)
    intro _
    exact triple_bind (definition_clean hr) fun _ => push_version_clean hr
  exact hrun.succeeds trivial

end

/-- The push is cut off after the first tagging; the next run, of the same files, finishes it. -/
def interrupted : List (Run Nat) := [{ source := 1, timestamp := "2023.0601.0800", version_create := .failed true }]

def retry : Run Nat := { source := 1, timestamp := "2023.0601.0900" }

theorem convergence_retry :
    Converged (fun n : Nat => toString n) retry
      (after (build_image fun n : Nat => toString n) (interrupted ++ [retry]) (start false false)) :=
  convergence (fun n : Nat => toString n) false false interrupted retry (by decide) rfl

end AzHop.BuildImage
