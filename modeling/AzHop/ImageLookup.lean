import AzHop.Lib.VersionSort
import AzHop.Lib.Words
import AzHop.Lib.Yaml
import AzHop.OpenpbsTemplate
/-!
# Image versions

`cccluster.yml` replaces an image that ends in `/latest` by the id of a version
of it: a shell task for each queue asks the gallery for the versions, takes the
first line of `sort -V -r`, and appends it to `image_lookup.yml`, which is loaded
as variables and given to the template of the cluster.

`pinned_iff` is about the whole way, from the list of queues to the `ImageName`
of every nodearray under either scheduler. Between them stand the reading of the
file (`lookup_eq`) and the order of the lines (`img_id_newest`).
-/
namespace AzHop.ImageLookup
open Lib.Objects Lib.Split Lib.Yaml SlurmTemplate
open Lib.VersionSort hiding Text

/-! ## The task -/

/-- A row of `az sig image-version list`. -/
structure ImageVersion where
  publishedDate : Text
  id : Text

/-- What the galleries hold: the versions by resource group, gallery and image. -/
abbrev Galleries := Text → Text → Text → List ImageVersion

/-- `--query "[].[publishingProfile.publishedDate, id]" -o tsv`. -/
def ImageVersion.row (v : ImageVersion) : Text := v.publishedDate ++ '\t' :: v.id

def tsv (vs : List ImageVersion) : Text := vs.flatMap fun v => v.row ++ ['\n']

/-- Characters that the shell reads as part of a word. -/
def isWordChar (c : Char) : Bool := c.isAlphanum || ['/', ':', '_', '.', '-'].contains c

/-- `image={{item.image}}`; words with other characters are not followed. -/
def assigned? (text : Text) : Option Text := if text.all isWordChar then some text else none

/-- `${image##*/}`. -/
def afterLast (image : Text) : Text := (image.splitOn '/').getLastD []

/-- `${image%/*}`. -/
def beforeLast (image : Text) : Text :=
  if '/' ∈ image then List.intercalate ['/'] (image.splitOn '/').dropLast else image

/-- `cut -d s -f n` of a line. -/
def cut (s : Char) (n : Nat) (line : Text) : Text := if s ∈ line then (line.splitOn s).getD (n - 1) [] else line

def isBlank (c : Char) : Bool := c = ' ' || c = '\t' || c = '\n'

/-- `xargs`, of a text without quotes. -/
def xargs (t : Text) : Text := List.intercalate [' '] (Lib.Words.words isBlank t)

/-- The lines of an output, the last of which ends too. -/
def outputLines (t : Text) : List Text := (t.splitOn '\n').dropLast

/-- `az sig image-version list ... | sort -V -r | head -n1 | cut -f2 | xargs`. -/
def img_id (az : Galleries) (image : Text) : Text :=
  let img_def := beforeLast image
  let img_name := afterLast img_def
  let sig_rg := cut '/' 5 image
  let sig_name := cut '/' 9 image
  xargs (((sortReverse (outputLines (tsv (az sig_rg sig_name img_name)))).head?.map (cut '\t' 2)).getD [])

def latest : Text := ['l', 'a', 't', 'e', 's', 't']

/-- What the task adds to the file for a queue, as the name and the id; `exit 1` is `none`. -/
def overwrite (az : Galleries) (item : Queue) : Option (List (Text × Text)) := do
  let image ← assigned? item.image.toList
  if afterLast image = latest then
    let id := img_id az image
    if id = [] then none else return [(item.name.toList, id)]
  else return []

def lookupKey : Text := ['i', 'm', 'a', 'g', 'e', '_', 'l', 'o', 'o', 'k', 'u', 'p']

/-- `echo "  {{item.name}}: $img_id" >> {{lookup_img_file}}`. -/
def echoed (e : Text × Text) : Text := [' ', ' '] ++ e.1 ++ [':', ' '] ++ e.2

/-- `image_lookup.yml` after `echo "image_lookup:"` and what was added. -/
def fileOf (added : List (Text × Text)) : Text :=
  lookupKey ++ [':'] ++ '\n' :: added.flatMap fun e => echoed e ++ ['\n']

/-- The file after the tasks of all queues. -/
def lookup_img_file (az : Galleries) (queues : List Queue) : Option Text := do
  let added ← queues.mapM (overwrite az)
  return fileOf added.flatten

/-! ## Loading the file -/

/-- A key of the file; a queue may have hyphens in its name. -/
def isKey (key : Text) : Bool := begins key && key.all fun c => c.isAlphanum || c = '_' || c = '-'

def line? (t : Text) : Option Line :=
  let body := t.dropWhile (· = ' ')
  let key := body.takeWhile (· ≠ ':')
  match body.drop key.length with
  | ':' :: v => if isKey key then (value? v).map fun value => ⟨t.length - body.length, key, value⟩ else none
  | _ => none

/-- `include_vars`. -/
def include_vars (text : Text) : Option (List Entry) :=
  (((text.splitOn '\n').filter (· ≠ [])).mapM line?).bind (assemble [(0, [])])

/-- The strings under `image_lookup`. The last line of a key counts, and a key
that is no string is not found under a name. -/
def image_lookup (entries : List Entry) : Lines :=
  (entries.filterMap fun e =>
    match e with
    | ([_, key], .str id) => if isTyped key then none else some (String.ofList key, String.ofList id)
    | _ => none).reverse

/-- The lookup that the template of the cluster is given. -/
def cc_image_lookup (az : Galleries) (queues : List Queue) : Option Lines := do
  let file ← lookup_img_file az queues
  let entries ← include_vars file
  return image_lookup entries

inductive QueueManager where
  | openpbs
  | slurm

def template : QueueManager → Option Lines → List Queue → Option (List Nodearray)
  | .openpbs => OpenpbsTemplate.render
  | .slurm => SlurmTemplate.render

/-- The nodearrays that are imported into CycleCloud. -/
def nodearrays (az : Galleries) (manager : QueueManager) (queues : List Queue) : Option (List Nodearray) := do
  let lookup ← cc_image_lookup az queues
  template manager (some lookup) queues

/-! ## Images of a gallery -/

/-- A name in a path. -/
structure Segment where
  chars : Text
  word : ∀ c ∈ chars, isWordChar c = true ∧ c ≠ '/'

structure GalleryImage where
  subscription : Segment
  group : Segment
  gallery : Segment
  name : Segment

def GalleryImage.path (g : GalleryImage) : List Text :=
  [[], "subscriptions".toList, g.subscription.chars, "resourceGroups".toList, g.group.chars, "providers".toList,
    "Microsoft.Compute".toList, "galleries".toList, g.gallery.chars, "images".toList, g.name.chars, latest]

/-- The id of the image, with `latest` for its version. -/
def GalleryImage.latest (g : GalleryImage) : Text := List.intercalate ['/'] g.path

/-- The versions of the image. -/
def GalleryImage.versions (az : Galleries) (g : GalleryImage) : List ImageVersion :=
  az g.group.chars g.gallery.chars g.name.chars

/-- A version that none was published after, texts of one shape being compared character by character. -/
def Newest (vs : List ImageVersion) (v : ImageVersion) : Prop :=
  v ∈ vs ∧ ∀ w ∈ vs, (List.compareLex charCmp v.publishedDate w.publishedDate).isGE = true

/-- What is used of a listing: times of one shape, and ids that are paths and end in a version number. -/
structure Listing (vs : List ImageVersion) : Prop where
  shape : ∀ v ∈ vs, ∀ w ∈ vs, SameShape v.publishedDate w.publishedDate
  date : ∀ v ∈ vs, (∃ c l, v.publishedDate = c :: l ∧ c.isDigit = true) ∧ ∀ c ∈ v.publishedDate, isBlank c = false
  id : ∀ v ∈ vs, v.id.head? = some '/' ∧ Numbered v.id ∧ ∀ c ∈ v.id, isWordChar c = true ∧ c ≠ ':'

/-! ## The first line -/

theorem forall_of_all {p : Char → Prop} [DecidablePred p] {t : Text} (h : (t.all fun c => decide (p c)) = true) :
    ∀ c ∈ t, p c := by
  simpa using h

theorem isBlank_of_isWordChar {c : Char} (h : isWordChar c = true) : isBlank c = false := by
  by_contra hblank
  rw [Bool.not_eq_false, isBlank, Bool.or_eq_true, Bool.or_eq_true] at hblank
  simp only [decide_eq_true_eq] at hblank
  rcases hblank with (rfl | rfl) | rfl <;> revert h <;> decide

theorem outputLines_tsv {vs : List ImageVersion} (h : Listing vs) : outputLines (tsv vs) = vs.map ImageVersion.row := by
  have hline : ∀ v ∈ vs, '\n' ∉ v.row := by
    intro v hv hmem
    rcases List.mem_append.1 hmem with hmem | hmem
    · have hblank := (h.date v hv).2 _ hmem
      cases hblank
    · rcases List.mem_cons.1 hmem with hmem | hmem
      · revert hmem
        decide
      · have hword := ((h.id v hv).2.2 _ hmem).1
        revert hword
        decide
  rw [outputLines, tsv, splitOn_lines hline]
  exact List.dropLast_concat

theorem rank_row {vs : List ImageVersion} (h : Listing vs) {v : ImageVersion} (hv : v ∈ vs) : rank v.row = 4 := by
  obtain ⟨c, l, hdate, hc⟩ := (h.date v hv).1
  have hdot : c ≠ '.' := by
    rintro rfl
    cases hc
  rw [ImageVersion.row, hdate]
  unfold rank
  split <;> simp_all

theorem numbered_row {vs : List ImageVersion} (h : Listing vs) {v : ImageVersion} (hv : v ∈ vs) : Numbered v.row := by
  obtain ⟨front, ds, heq, hne, hds⟩ := (h.id v hv).2.1
  exact ⟨v.publishedDate ++ '\t' :: front, ds, by simp [ImageVersion.row, heq], hne, hds⟩

/-- Rows with different times are in the order of their times. -/
theorem lineCmp_row {vs : List ImageVersion} (h : Listing vs) {v w : ImageVersion} (hv : v ∈ vs) (hw : w ∈ vs)
    (hne : v.publishedDate ≠ w.publishedDate) :
    lineCmp v.row w.row = List.compareLex charCmp v.publishedDate w.publishedDate := by
  have htab : ∀ id : Text, BeginsText ('\t' :: id) := fun id => ⟨'\t', id, rfl, rfl⟩
  have hcmp := verrevcmp_shape (h.shape v hv w hw) hne (htab v.id) (htab w.id)
  rw [lineCmp, filevercmp_numbered (numbered_row h hv) (numbered_row h hw) (rank_row h hv) (rank_row h hw),
    ImageVersion.row, ImageVersion.row, hcmp]
  cases hdates : List.compareLex charCmp v.publishedDate w.publishedDate with
  | lt => rfl
  | gt => rfl
  | eq => exact absurd (compareLex_eq hdates) hne

theorem cut_row {vs : List ImageVersion} (h : Listing vs) {v : ImageVersion} (hv : v ∈ vs) : cut '\t' 2 v.row = v.id := by
  have hdate : '\t' ∉ v.publishedDate := fun hmem => by cases (h.date v hv).2 _ hmem
  have hid : '\t' ∉ v.id := fun hmem => by
    have hword := ((h.id v hv).2.2 _ hmem).1
    revert hword
    decide
  rw [cut, if_pos (by simp [ImageVersion.row]), ImageVersion.row, List.splitOn_append_cons_self_of_not_mem hdate,
    List.splitOn_eq_singleton hid]
  rfl

theorem xargs_id {vs : List ImageVersion} (h : Listing vs) {v : ImageVersion} (hv : v ∈ vs) : xargs v.id = v.id := by
  have hne : v.id ≠ [] := by
    intro hnil
    have hhead := (h.id v hv).1
    rw [hnil] at hhead
    cases hhead
  rw [xargs, Lib.Words.words_solid (fun c hc => isBlank_of_isWordChar ((h.id v hv).2.2 c hc).1) hne]
  exact List.intercalate_singleton

/-! ## The path of an image -/

theorem splitOn_latest (g : GalleryImage) : g.latest.splitOn '/' = g.path := by
  refine List.splitOn_intercalate '/' ?_ (List.cons_ne_nil _ _)
  have hsegment : ∀ s : Segment, '/' ∉ s.chars := fun s hmem => (s.word _ hmem).2 rfl
  simp only [GalleryImage.path, List.forall_mem_cons, hsegment, List.not_mem_nil, not_false_eq_true, true_and,
    false_implies, implies_true, and_true]
  decide

theorem afterLast_latest (g : GalleryImage) : afterLast g.latest = latest := by
  rw [afterLast, splitOn_latest]
  rfl

theorem slash_mem_latest (g : GalleryImage) : '/' ∈ g.latest := by
  by_contra hno
  have hsplit := splitOn_latest g
  rw [List.splitOn_eq_singleton hno] at hsplit
  cases hsplit

theorem assigned_latest (g : GalleryImage) : assigned? g.latest = some g.latest := by
  have hall : g.latest.all isWordChar = true := by
    rw [List.all_eq_true]
    intro c hc
    rcases mem_intercalate hc with rfl | ⟨piece, hpiece, hc⟩
    · rfl
    · have hsegment : ∀ s : Segment, ∀ c ∈ s.chars, isWordChar c = true := fun s c hc => (s.word c hc).1
      have hwords : ∀ piece ∈ g.path, ∀ c ∈ piece, isWordChar c = true := by
        simp only [GalleryImage.path, List.forall_mem_cons]
        refine ⟨?_, ?_, hsegment _, ?_, hsegment _, ?_, ?_, ?_, hsegment _, ?_, hsegment _, ?_, List.forall_mem_nil _⟩ <;>
          exact forall_of_all (by decide)
      exact hwords piece hpiece c hc
  rw [assigned?, if_pos hall]

/-- The arguments of the query are the names in the path. -/
theorem img_id_latest (az : Galleries) (g : GalleryImage) : img_id az g.latest =
    xargs (((sortReverse (outputLines (tsv (g.versions az)))).head?.map (cut '\t' 2)).getD []) := by
  have hslash := slash_mem_latest g
  have hname : afterLast (beforeLast g.latest) = g.name.chars := by
    have hinit : g.path.dropLast ≠ [] := List.cons_ne_nil _ _
    have hno : ∀ piece ∈ g.path.dropLast, '/' ∉ piece := fun piece hp =>
      (of_mem_splitOn (l := g.latest) (by rw [splitOn_latest]; exact List.mem_of_mem_dropLast hp)).1
    rw [beforeLast, if_pos hslash, splitOn_latest, afterLast, List.splitOn_intercalate '/' hno hinit]
    rfl
  simp only [img_id, hname, cut, if_pos hslash, splitOn_latest]
  rfl

/-- The id that is found is that of a newest version, and there is one if there are versions. -/
theorem img_id_newest {az : Galleries} {g : GalleryImage} (h : Listing (g.versions az)) :
    g.versions az = [] ∧ img_id az g.latest = [] ∨
      ∃ v, Newest (g.versions az) v ∧ img_id az g.latest = v.id ∧ v.id ≠ [] := by
  rw [img_id_latest, outputLines_tsv h]
  cases hhead : (sortReverse ((g.versions az).map ImageVersion.row)).head? with
  | none =>
    have hnil : g.versions az = [] := by
      refine List.eq_nil_iff_forall_not_mem.2 fun v hv => ?_
      have hmem := mem_sortReverse.2 (List.mem_map_of_mem (f := ImageVersion.row) hv)
      rw [List.head?_eq_none_iff.1 hhead] at hmem
      cases hmem
    exact .inl ⟨hnil, rfl⟩
  | some line =>
    obtain ⟨hmem, hfirst⟩ := head_sortReverse hhead
    obtain ⟨v, hv, rfl⟩ := List.mem_map.1 hmem
    have hid : v.id ≠ [] := by
      intro hnil
      have hslash := (h.id v hv).1
      rw [hnil] at hslash
      cases hslash
    refine .inr ⟨v, ⟨hv, fun w hw => ?_⟩, ?_, hid⟩
    · by_cases heq : v.publishedDate = w.publishedDate
      · have hself : List.compareLex charCmp w.publishedDate w.publishedDate = .eq := by
          have horder := transCmp_char
          exact Std.ReflCmp.compare_self
        rw [heq, hself]
        rfl
      · rw [← lineCmp_row h hv hw heq]
        exact hfirst _ (List.mem_map_of_mem hw)
    · rw [Option.map_some, Option.getD_some, cut_row h hv, xargs_id h hv]

/-! ## The file is read back -/

/-- A name that is read as a string and is no number. -/
structure QueueName (name : Text) : Prop where
  begins : begins name = true
  chars : ∀ c ∈ name, (c.isAlphanum || c == '-') = true
  string : isTyped name = false

/-- What is added for a queue can be read. -/
def Addable (e : Text × Text) : Prop := QueueName e.1 ∧ Plain e.2 ∧ '\n' ∉ e.2

theorem not_mem_name {name : Text} (h : QueueName name) {c : Char} (hc : (c.isAlphanum || c == '-') = false) : c ∉ name := by
  intro hmem
  have hchar := h.chars c hmem
  rw [hc] at hchar
  cases hchar

theorem isKey_name {name : Text} (h : QueueName name) : isKey name = true := by
  rw [isKey, h.begins, Bool.true_and, List.all_eq_true]
  intro c hc
  have hchar := h.chars c hc
  simp only [Bool.or_eq_true, beq_iff_eq, decide_eq_true_eq] at hchar ⊢
  tauto

theorem newline_not_mem_echoed {e : Text × Text} (h : Addable e) : '\n' ∉ echoed e := by
  have hname := not_mem_name h.1 (c := '\n') rfl
  simp [echoed, hname, h.2.2]

theorem line?_echoed {e : Text × Text} (h : Addable e) : line? (echoed e) = some ⟨2, e.1, some (.str e.2)⟩ := by
  obtain ⟨name, id⟩ := e
  obtain ⟨hname, hid, -⟩ := h
  have hcolon : ':' ∉ name := not_mem_name hname rfl
  have hbody : (echoed (name, id)).dropWhile (· = ' ') = name ++ ':' :: ' ' :: id := by
    have hshape : echoed (name, id) = List.replicate 2 ' ' ++ (name ++ ':' :: ' ' :: id) := by
      simp [echoed, List.replicate]
    rw [hshape, dropWhile_blanks]
    cases name with
    | nil => cases hname.begins
    | cons c name =>
      have hblank : ' ' ≠ c := fun hc => not_mem_name hname (c := ' ') rfl (hc ▸ List.mem_cons_self)
      exact List.dropWhile_cons_of_neg fun hc => hblank (of_decide_eq_true hc).symm
  have htake : (name ++ ':' :: ' ' :: id).takeWhile (· ≠ ':') = name := takeWhile_append_cons hcolon _
  have hdrop : (name ++ ':' :: ' ' :: id).drop name.length = ':' :: ' ' :: id := by simp
  have hlength : (echoed (name, id)).length - (name ++ ':' :: ' ' :: id).length = 2 := by
    simp only [echoed, List.length_append, List.length_cons, List.length_nil]
    omega
  have hvalue := (value?_str_iff id).2 hid
  simp only [line?, hbody, htake, hdrop, hlength, if_pos (isKey_name hname), hvalue]
  rfl

theorem image_lookup_entries {added : List (Text × Text)} (h : ∀ e ∈ added, Addable e) :
    image_lookup (leafEntries [lookupKey] (added.map fun e => (e.1, some (.str e.2)))) =
      (added.map fun e => (String.ofList e.1, String.ofList e.2)).reverse := by
  rw [image_lookup, leafEntries, List.map_map, List.filterMap_map]
  congr 1
  rw [← List.filterMap_eq_map]
  refine List.filterMap_congr fun e he => ?_
  simp [(h e he).1.string]

/-- The lookup is what was added, the last first. -/
theorem image_lookup_file {added : List (Text × Text)} (h : ∀ e ∈ added, Addable e) :
    (include_vars (fileOf added)).map image_lookup =
      some (added.map fun e => (String.ofList e.1, String.ofList e.2)).reverse := by
  have hfirst : '\n' ∉ lookupKey ++ [':'] := by decide
  have hlines : ((fileOf added).splitOn '\n').filter (· ≠ []) = (lookupKey ++ [':']) :: added.map echoed := by
    rw [fileOf, List.splitOn_append_cons_self_of_not_mem hfirst, splitOn_lines fun e he => newline_not_mem_echoed (h e he),
      List.filter_cons_of_pos (by decide), List.filter_append]
    have hkept : (added.map echoed).filter (· ≠ []) = added.map echoed := by
      refine List.filter_eq_self.2 fun t ht => ?_
      obtain ⟨e, -, rfl⟩ := List.mem_map.1 ht
      simp [echoed]
    rw [hkept]
    simp
  have hhead : line? (lookupKey ++ [':']) = some ⟨0, lookupKey, none⟩ := rfl
  have hread : (added.map echoed).mapM line? = some (leafLines 2 (added.map fun e => (e.1, some (.str e.2)))) := by
    rw [List.mapM_map, leafLines, List.map_map]
    exact mapM_eq_map fun e he => line?_echoed (h e he)
  have hall : (((fileOf added).splitOn '\n').filter (· ≠ [])).mapM line? =
      some (⟨0, lookupKey, none⟩ :: leafLines 2 (added.map fun e => (e.1, some (.str e.2)))) := by
    rw [hlines, List.mapM_cons, hhead, hread]
    rfl
  rw [include_vars, hall, Option.bind_some]
  cases added with
  | nil => rfl
  | cons e added =>
    -- the key and the lines below it are one mapping
    have hsection : ∀ s : Section, assemble [(0, [])] (s.lines 0 2 ++ []) = (assemble [(0, [])] []).map (s.entries [] ++ ·) :=
      fun s => assemble_section (by decide) [] [] s [] (by simp)
    have hread := hsection ⟨lookupKey, (e :: added).map fun e => (e.1, some (.str e.2)), by simp⟩
    rw [List.append_nil] at hread
    refine (congrArg (Option.map image_lookup) hread).trans ?_
    have hnil : assemble [(0, [])] [] = some [] := rfl
    rw [hnil, Option.map_some, Option.map_some, List.append_nil, ← image_lookup_entries h]
    rfl

/-! ## One queue -/

/-- A queue of which the image is a fixed one or the latest of a gallery. -/
structure Supported (az : Galleries) (q : Queue) : Prop where
  name : QueueName q.name.toList
  image : (q.image.toList.all isWordChar = true ∧ afterLast q.image.toList ≠ latest) ∨
    ∃ g : GalleryImage, q.image.toList = g.latest ∧ Listing (g.versions az)

/-- The gallery has a version of the image, where one is asked for. -/
def HasVersion (az : Galleries) (q : Queue) : Prop :=
  ∀ g : GalleryImage, q.image.toList = g.latest → g.versions az ≠ []

/-- The image is the one of the queue, or the newest version of it. -/
def Pinned (az : Galleries) (q : Queue) (image : String) : Prop :=
  (afterLast q.image.toList ≠ latest → image = q.image) ∧
    ∀ g : GalleryImage, q.image.toList = g.latest → ∃ v, Newest (g.versions az) v ∧ image = String.ofList v.id

theorem latest_versions {g g' : GalleryImage} (h : g.latest = g'.latest) (az : Galleries) : g.versions az = g'.versions az := by
  have hpath : g.path = g'.path := by rw [← splitOn_latest, ← splitOn_latest, h]
  simp only [GalleryImage.path, List.cons.injEq, true_and, and_true] at hpath
  obtain ⟨-, hgroup, hgallery, hname⟩ := hpath
  rw [GalleryImage.versions, hgroup, hgallery, hname, GalleryImage.versions]

theorem plain_id {vs : List ImageVersion} (h : Listing vs) {v : ImageVersion} (hv : v ∈ vs) : Plain v.id ∧ '\n' ∉ v.id := by
  obtain ⟨hhead, -, hchars⟩ := h.id v hv
  have hno : ∀ c, isWordChar c = false ∨ c = ':' → c ∉ v.id := by
    rintro c hc hmem
    obtain ⟨hword, hcolon⟩ := hchars c hmem
    rcases hc with hc | hc
    · rw [hc] at hword
      cases hword
    · exact hcolon hc
  obtain ⟨l, hl⟩ := List.head?_eq_some_iff.1 hhead
  refine ⟨⟨?_, ?_, ?_, ?_⟩, hno '\n' (.inl (by decide))⟩
  · rw [hl]
    rfl
  · rintro a b heq
    exact absurd (by rw [heq]; simp) (hno ':' (.inr rfl))
  · rintro a b heq
    exact absurd (by rw [heq]; simp) (hno ' ' (.inl (by decide)))
  · rw [hl]
    exact isTyped_slash l

/-- What the task does for a queue: nothing, or a newest version is added, or it fails. -/
theorem overwrite_cases {az : Galleries} {q : Queue} (h : Supported az q) :
    (overwrite az q = some [] ∧ HasVersion az q ∧ Pinned az q q.image) ∨
    (∃ id, overwrite az q = some [(q.name.toList, id)] ∧ Addable (q.name.toList, id) ∧ HasVersion az q ∧
      Pinned az q (String.ofList id)) ∨
    (overwrite az q = none ∧ ¬HasVersion az q) := by
  rcases h.image with ⟨hword, hfixed⟩ | ⟨g, hg, hlisting⟩
  · have hno : ∀ g : GalleryImage, q.image.toList ≠ g.latest := fun g hg => hfixed (by rw [hg, afterLast_latest])
    refine .inl ⟨?_, fun g hg => absurd hg (hno g), fun _ => rfl, fun g hg => absurd hg (hno g)⟩
    simp [overwrite, assigned?, hword, hfixed]
  · have hsame : ∀ g' : GalleryImage, q.image.toList = g'.latest → g'.versions az = g.versions az := fun g' hg' =>
      latest_versions (hg'.symm.trans hg) az
    have hrun : overwrite az q = if img_id az g.latest = [] then none else some [(q.name.toList, img_id az g.latest)] := by
      simp only [overwrite, hg, assigned_latest, afterLast_latest, Option.bind_eq_bind, Option.bind_some, if_true]
      rfl
    rcases img_id_newest hlisting with ⟨hnone, hid⟩ | ⟨v, hnewest, hid, hne⟩
    · refine .inr (.inr ⟨by rw [hrun, if_pos hid], fun hhas => hhas g hg hnone⟩)
    · refine .inr (.inl ⟨v.id, by rw [hrun, hid, if_neg hne], ⟨h.name, plain_id hlisting hnewest.1⟩, ?_, ?_, ?_⟩)
      · intro g' hg' hnone
        rw [hsame g' hg'] at hnone
        rw [hnone] at hnewest
        cases hnewest.1
      · intro hfixed
        exact absurd (by rw [hg, afterLast_latest]) hfixed
      · intro g' hg'
        exact ⟨v, hsame g' hg' ▸ hnewest, rfl⟩

/-! ## All queues -/

theorem get?_reverse {l : Lines} (h : (keys l).Nodup) {k v : String} : get? l.reverse k = some v ↔ (k, v) ∈ l := by
  constructor
  · intro hget
    exact List.mem_reverse.1 (mem_of_get? hget)
  · intro hmem
    have hkey : k ∈ keys l.reverse := mem_keys_of_mem (List.mem_reverse.2 hmem)
    obtain ⟨v', hv'⟩ := Option.isSome_iff_exists.1 ((get?_isSome_iff _ _).2 hkey)
    have hpair := List.inj_on_of_nodup_map h hmem (List.mem_reverse.1 (mem_of_get? hv')) rfl
    rw [hv', (Prod.mk.inj hpair).2]

theorem overwrite_keys {az : Galleries} {q : Queue} {l : List (Text × Text)} (h : overwrite az q = some l) :
    (l.map Prod.fst).Sublist [q.name.toList] := by
  simp only [overwrite, Option.bind_eq_bind, Option.bind_eq_some_iff] at h
  obtain ⟨image, -, hrun⟩ := h
  split at hrun
  · split at hrun
    · cases hrun
    · cases hrun
      exact List.Sublist.refl _
  · cases hrun
    exact List.nil_sublist _

/-- Names are added in the order of the queues, each at most once. -/
theorem added_keys {az : Galleries} {queues : List Queue} {added : List (List (Text × Text))}
    (h : queues.mapM (overwrite az) = some added) :
    (added.flatten.map Prod.fst).Sublist (queues.map fun q => q.name.toList) := by
  induction queues generalizing added with
  | nil =>
    cases h
    exact List.nil_sublist _
  | cons q queues ih =>
    simp only [List.mapM_cons, Option.bind_eq_bind, Option.bind_eq_some_iff, Option.pure_def, Option.some.injEq] at h
    obtain ⟨l, hl, added, hadded, rfl⟩ := h
    rw [List.flatten_cons, List.map_append, List.map_cons]
    exact (overwrite_keys hl).append (ih hadded)

/-- The lookup that the template is given: every queue finds its image, or a
gallery has no version and the playbook stops. -/
theorem cc_image_lookup_cases {az : Galleries} {queues : List Queue} (hnodup : (queues.map (·.name)).Nodup)
    (h : ∀ q ∈ queues, Supported az q) :
    (cc_image_lookup az queues = none ∧ ∃ q ∈ queues, ¬HasVersion az q) ∨
    ∃ lookup, cc_image_lookup az queues = some lookup ∧
      ∀ q ∈ queues, HasVersion az q ∧ Pinned az q (imageName (some lookup) q) := by
  cases hadded : queues.mapM (overwrite az) with
  | none =>
    left
    refine ⟨by simp [cc_image_lookup, lookup_img_file, hadded], ?_⟩
    by_contra hno
    push Not at hno
    have hall : ∀ q ∈ queues, (overwrite az q).isSome = true := by
      intro q hq
      rcases overwrite_cases (h q hq) with ⟨hrun, -⟩ | ⟨id, hrun, -⟩ | ⟨-, hnot⟩
      · rw [hrun]
        rfl
      · rw [hrun]
        rfl
      · exact absurd (hno q hq) hnot
    have hsome := mapM_isSome_iff.2 hall
    rw [hadded] at hsome
    cases hsome
  | some added =>
    right
    have hmem : ∀ e, e ∈ added.flatten ↔ ∃ q ∈ queues, ∃ l, overwrite az q = some l ∧ e ∈ l := by
      intro e
      rw [List.mem_flatten]
      constructor
      · rintro ⟨l, hl, he⟩
        obtain ⟨q, hq, hrun⟩ := (mem_mapM_iff hadded l).1 hl
        exact ⟨q, hq, l, hrun, he⟩
      · rintro ⟨q, hq, l, hrun, he⟩
        exact ⟨l, (mem_mapM_iff hadded l).2 ⟨q, hq, hrun⟩, he⟩
    -- what is added has the name of its queue
    have hentry : ∀ e ∈ added.flatten, Addable e ∧ ∃ q ∈ queues, e.1 = q.name.toList ∧ overwrite az q = some [e] := by
      intro e he
      obtain ⟨q, hq, l, hrun, hel⟩ := (hmem e).1 he
      rcases overwrite_cases (h q hq) with ⟨hrun', -⟩ | ⟨id, hrun', hadd, -⟩ | ⟨hrun', -⟩
      · rw [hrun'] at hrun
        cases hrun
        cases hel
      · rw [hrun'] at hrun
        cases hrun
        obtain rfl := List.mem_singleton.1 hel
        exact ⟨hadd, q, hq, rfl, hrun'⟩
      · rw [hrun'] at hrun
        cases hrun
    have hfile := image_lookup_file fun e he => (hentry e he).1
    have hkeys : (keys (added.flatten.map fun e => (String.ofList e.1, String.ofList e.2))).Nodup := by
      have hsub := (added_keys hadded).map String.ofList
      rw [List.map_map, List.map_map] at hsub
      have hnames : queues.map (String.ofList ∘ fun q => q.name.toList) = queues.map (·.name) :=
        List.map_congr_left fun q _ => String.ofList_toList
      rw [hnames] at hsub
      rw [keys, List.map_map]
      exact hnodup.sublist hsub
    refine ⟨(added.flatten.map fun e => (String.ofList e.1, String.ofList e.2)).reverse, ?_, ?_⟩
    · obtain ⟨entries, hentries, heq⟩ := Option.map_eq_some_iff.1 hfile
      simp [cc_image_lookup, lookup_img_file, hadded, hentries, heq]
    · intro q hq
      rcases overwrite_cases (h q hq) with ⟨hrun, hhas, hpinned⟩ | ⟨id, hrun, -, hhas, hpinned⟩ | ⟨hrun, -⟩
      · have hnone : get? (added.flatten.map fun e => (String.ofList e.1, String.ofList e.2)).reverse q.name = none := by
          rw [Option.eq_none_iff_forall_ne_some]
          intro v hv
          obtain ⟨e, he, heq⟩ := List.mem_map.1 ((get?_reverse hkeys).1 hv)
          obtain ⟨-, q', hq', hname, hrun'⟩ := hentry e he
          have hsame : q'.name = q.name := by
            rw [← (Prod.mk.inj heq).1, hname, String.ofList_toList]
          obtain rfl := List.inj_on_of_nodup_map hnodup hq' hq hsame
          rw [hrun] at hrun'
          cases hrun'
        exact ⟨hhas, by rw [imageName, Option.bind_some, hnone]; exact hpinned⟩
      · have hsome : get? (added.flatten.map fun e => (String.ofList e.1, String.ofList e.2)).reverse q.name =
            some (String.ofList id) := by
          refine (get?_reverse hkeys).2 (List.mem_map.2 ⟨(q.name.toList, id), ?_, ?_⟩)
          · exact (hmem _).2 ⟨q, hq, _, hrun, List.mem_singleton.2 rfl⟩
          · rw [String.ofList_toList]
        exact ⟨hhas, by rw [imageName, Option.bind_some, hsome]; exact hpinned⟩
      · have hall := exists_of_mapM hadded q hq
        rw [hrun] at hall
        obtain ⟨l, hl⟩ := hall
        cases hl

/-! ## The cluster -/

theorem get?_line? {name k : String} (h : name ≠ k) (value : Option String) :
    get? (SlurmTemplate.line? name value) k = none := by
  cases value <;> simp [SlurmTemplate.line?, get?, h]

/-- The lines of the machines have the image once. -/
theorem get?_machineLines {lookup : Option Lines} {q : Queue} {machine : Lines} (h : machineLines lookup q = some machine) :
    get? machine "ImageName" = some (imageName lookup q) := by
  simp only [machineLines, Option.bind_eq_bind, Option.bind_eq_some_iff, Option.pure_def, Option.some.injEq] at h
  obtain ⟨plan, -, region, -, rfl⟩ := h
  have hother : ∀ name value, name ≠ "ImageName" → get? (SlurmTemplate.line? name value) "ImageName" = none :=
    fun name value hne => get?_line? hne value
  simp only [get?_append]
  rw [hother "MaxCoreCount" _ (by decide), hother "MaxCount" _ (by decide),
    hother "EnableAcceleratedNetworking" _ (by decide), hother "Interruptible" _ (by decide)]
  rfl

theorem mem_template {manager : QueueManager} {lookup : Option Lines} {queues : List Queue} {arrays : List Nodearray}
    (h : template manager lookup queues = some arrays) {a : Nodearray} (ha : a ∈ arrays) :
    ∃ q ∈ queues, a.name = q.name ∧ get? a.attributes "ImageName" = some (imageName lookup q) := by
  cases manager with
  | openpbs =>
    obtain ⟨q, hq, hqa⟩ := OpenpbsTemplate.mem_render h ha
    obtain ⟨hname, machine, hmachine, hattributes⟩ := OpenpbsTemplate.queueArray_eq_some hqa
    refine ⟨q, hq, hname, ?_⟩
    rw [hattributes, ← get?_machineLines hmachine]
    rfl
  | slurm =>
    obtain ⟨q, hq, ⟨-, hqa⟩ | ⟨-, first, hqa⟩⟩ := SlurmTemplate.mem_render h ha
    · simp only [loginArray, Option.bind_eq_bind, Option.bind_eq_some_iff, Option.pure_def, Option.some.injEq] at hqa
      obtain ⟨n, -, machine, hmachine, rfl⟩ := hqa
      refine ⟨q, hq, rfl, ?_⟩
      rw [← get?_machineLines hmachine]
      rfl
    · simp only [queueArray, Option.bind_eq_bind, Option.bind_eq_some_iff, Option.pure_def, Option.some.injEq] at hqa
      obtain ⟨machine, hmachine, rfl⟩ := hqa
      refine ⟨q, hq, rfl, ?_⟩
      rw [← get?_machineLines hmachine]
      rfl

theorem names_template {manager : QueueManager} {lookup : Option Lines} {queues : List Queue} {arrays : List Nodearray}
    (h : template manager lookup queues = some arrays) : (arrays.map (·.name)).Perm (queues.map (·.name)) := by
  cases manager with
  | openpbs =>
    have hnames : arrays.map (·.name) = queues.map (·.name) :=
      map_of_mapM (fun q a hqa => (OpenpbsTemplate.queueArray_eq_some hqa).1) h
    rw [hnames]
  | slurm => exact SlurmTemplate.names_of_render h

/-- What the template prints without a default is there. -/
def Renderable : QueueManager → List Queue → Prop
  | .openpbs, queues => ∀ q ∈ queues, (∀ plan, q.plan = some plan → 3 ≤ (plan.splitOn ":").length) ∧
      (q.location.isSome = true → q.subnet.isSome = true)
  | .slurm, queues => Renders queues

theorem template_isSome_iff (manager : QueueManager) (lookup : Option Lines) (queues : List Queue) :
    (template manager lookup queues).isSome = true ↔ Renderable manager queues := by
  cases manager with
  | openpbs =>
    rw [template, Renderable, OpenpbsTemplate.render_isSome_iff]
    simp only [machineLines_isSome_iff]
  | slurm => exact SlurmTemplate.render_isSome_iff lookup

/-- One nodearray a queue, with its image, or the newest version of it. -/
structure Pins (az : Galleries) (queues : List Queue) (arrays : List Nodearray) : Prop where
  names : (arrays.map (·.name)).Perm (queues.map (·.name))
  image : ∀ a ∈ arrays, ∀ q ∈ queues, a.name = q.name →
    ∃ image, get? a.attributes "ImageName" = some image ∧ Pinned az q image

/-- Under either scheduler the playbook gives every queue its image, just when
the template has what it prints and every image that is asked for in its latest
version has one. -/
theorem pinned_iff (az : Galleries) (manager : QueueManager) (queues : List Queue)
    (hnodup : (queues.map (·.name)).Nodup) (h : ∀ q ∈ queues, Supported az q) :
    (∃ arrays, nodearrays az manager queues = some arrays ∧ Pins az queues arrays) ↔
      Renderable manager queues ∧ ∀ q ∈ queues, HasVersion az q := by
  rcases cc_image_lookup_cases hnodup h with ⟨hnone, q, hq, hnot⟩ | ⟨lookup, hlookup, hqueues⟩
  · constructor
    · rintro ⟨arrays, hrun, -⟩
      simp [nodearrays, hnone] at hrun
    · rintro ⟨-, hall⟩
      exact absurd (hall q hq) hnot
  · have hrun : nodearrays az manager queues = template manager (some lookup) queues := by
      simp [nodearrays, hlookup]
    rw [hrun, ← template_isSome_iff manager (some lookup)]
    constructor
    · rintro ⟨arrays, harrays, -⟩
      exact ⟨by rw [harrays]; rfl, fun q hq => (hqueues q hq).1⟩
    · rintro ⟨hsome, -⟩
      obtain ⟨arrays, harrays⟩ := Option.isSome_iff_exists.1 hsome
      refine ⟨arrays, harrays, names_template harrays, fun a ha q hq hname => ?_⟩
      obtain ⟨q', hq', hname', himage⟩ := mem_template harrays ha
      obtain rfl := List.inj_on_of_nodup_map hnodup hq hq' (hname.symm.trans hname')
      exact ⟨_, himage, (hqueues q hq).2⟩

/-! ## A custom image -/

def segment (s : String) (h : ∀ c ∈ s.toList, isWordChar c = true ∧ c ≠ '/') : Segment := ⟨s.toList, h⟩

def centos : GalleryImage where
  subscription := segment "f1" (forall_of_all (by decide))
  group := segment "hub" (forall_of_all (by decide))
  gallery := segment "sig" (forall_of_all (by decide))
  name := segment "centos" (forall_of_all (by decide))

def january : ImageVersion := ⟨"2023-01-31T08:00:00+00:00".toList, "/f1/hub/sig/centos/versions/7.9.10".toList⟩

def february : ImageVersion := ⟨"2023-02-01T08:00:00+00:00".toList, "/f1/hub/sig/centos/versions/7.9.9".toList⟩

def galleries : Galleries := fun _ _ name => if name = "centos".toList then [january, february] else []

def custom : Queue := { name := "hb120v3", vm_size := "Standard_HB120rs_v3", image := String.ofList centos.latest }

theorem versions_centos : centos.versions galleries = [january, february] := by
  have hname : centos.name.chars = "centos".toList := rfl
  rw [GalleryImage.versions, galleries, if_pos hname]

theorem listing_centos : Listing [january, february] := by
  refine ⟨?_, ?_, ?_⟩ <;>
    simp only [List.forall_mem_cons, List.not_mem_nil, false_implies, implies_true, and_true]
  · unfold SameShape
    decide
  · exact ⟨⟨⟨'2', _, rfl, rfl⟩, forall_of_all (by decide)⟩, ⟨'2', _, rfl, rfl⟩, forall_of_all (by decide)⟩
  · exact ⟨⟨rfl, ⟨"/f1/hub/sig/centos/versions/7.9".toList, ['1', '0'], by decide, by decide, forall_of_all (by decide)⟩,
      forall_of_all (by decide)⟩, rfl,
      ⟨"/f1/hub/sig/centos/versions/7.9".toList, ['9'], by decide, by decide, forall_of_all (by decide)⟩,
      forall_of_all (by decide)⟩

theorem supported_custom : Supported galleries custom := by
  have himage : custom.image.toList = centos.latest := String.toList_ofList
  exact ⟨⟨by decide, forall_of_all (by decide), by decide⟩, .inr ⟨centos, himage, versions_centos ▸ listing_centos⟩⟩

theorem pinned_custom : ∃ arrays, nodearrays galleries .openpbs [custom] = some arrays ∧ Pins galleries [custom] arrays := by
  refine (pinned_iff galleries .openpbs [custom] (by decide) ?_).2 ⟨?_, ?_⟩
  · exact List.forall_mem_singleton.2 supported_custom
  · exact List.forall_mem_singleton.2 (by simp [custom])
  · refine List.forall_mem_singleton.2 fun g hg => ?_
    have hsame : g.latest = centos.latest := hg.symm.trans String.toList_ofList
    rw [latest_versions hsame, versions_centos]
    exact List.cons_ne_nil _ _

end AzHop.ImageLookup
