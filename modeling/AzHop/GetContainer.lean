import AzHop.Lib.Split
import AzHop.Secrets
/-!
# The image of a container

`get_container.sh` imports an image with `enroot` into a file of the temporary
directory, and creates the container from it. An image without a scheme gets
`docker://`; the file is named after what follows the scheme.

The scheme is looked for with `[ .. != *"://"* ]`, which is not a pattern match:
the word is expanded to file names, and where there are none it stands for
itself. `normalises_iff` says which images come through.
-/
namespace AzHop.GetContainer
open Lib.Words Lib.Split Secrets

/-- A character the shell leaves as it is in an unquoted value. -/
def plain (c : Char) : Bool := !isBlank c && !(c = '*' || c = '?' || c = '[' || c = '\\')

/-- The file names the shell makes of a word; a word that matches none stays. -/
structure Shell where
  glob : Text → List Text
  glob_plain : ∀ w, (∀ c ∈ w, plain c = true) → glob w = [w]

variable (sh : Shell)

/-- The arguments an unquoted value becomes. -/
def arguments (value : Text) : List Text := (words isBlank value).flatMap sh.glob

def separator : Text := [':', '/', '/']

def docker : Text := ['d', 'o', 'c', 'k', 'e', 'r'] ++ separator

/-- `[ "$container_image" != *"://"* ]`: an error, and so false, when the word
is not one file name. -/
def lacksScheme (container_image : Text) : Bool :=
  match sh.glob ('*' :: separator ++ ['*']) with
  | [w] => container_image ≠ w
  | _ => false

/-- The value of `container_image` from there on. -/
def withScheme (container_image : Text) : Text :=
  if lacksScheme sh container_image then docker ++ container_image else container_image

/-- `${container_image#*://}`. -/
def withoutScheme (container_image : Text) : Text := (rest? separator container_image).getD container_image

/-- `${..//c/+}`. -/
def plus (c : Char) (name : Text) : Text := name.map fun d => if d = c then '+' else d

/-- The name of the squashfs file, less its directory and `.sqsh`. -/
def squashfsName (container_image : Text) : Text := plus ':' (plus '/' (withoutScheme container_image))

/-! ## What it should do -/

def HasScheme (image : Text) : Prop := separator <:+: image

instance (image : Text) : Decidable (HasScheme image) := inferInstanceAs (Decidable (_ <:+: _))

/-- The URI of an image. -/
def uri (image : Text) : Text := if HasScheme image then image else docker ++ image

/-- `enroot import` gets the URI of the image, and the file has the name of the
image without its scheme, with neither `/` nor `:`. -/
def Normalises (image : Text) : Prop :=
  withScheme sh image = uri image ∧ arguments sh (withScheme sh image) = [uri image] ∧
  squashfsName (withScheme sh image) = squashfsName image ∧
  '/' ∉ squashfsName (withScheme sh image) ∧ ':' ∉ squashfsName (withScheme sh image)

/-! ## File names -/

theorem notMem_plus_self {c : Char} (hc : c ≠ '+') (name : Text) : c ∉ plus c name := by
  unfold plus
  rw [List.mem_map]
  rintro ⟨d, -, hd⟩
  split at hd
  · exact hc hd.symm
  · rename_i hne
    exact hne hd

theorem notMem_plus {c d : Char} (hd : d ≠ '+') {name : Text} (h : d ∉ name) : d ∉ plus c name := by
  unfold plus
  rw [List.mem_map]
  rintro ⟨e, he, heq⟩
  split at heq
  · exact hd heq.symm
  · exact h (heq ▸ he)

theorem slash_notMem_squashfsName (image : Text) : '/' ∉ squashfsName image :=
  notMem_plus (by decide) (notMem_plus_self (by decide) _)

theorem colon_notMem_squashfsName (image : Text) : ':' ∉ squashfsName image :=
  notMem_plus_self (by decide) _

theorem withoutScheme_of_not_hasScheme {image : Text} (h : ¬ HasScheme image) : withoutScheme image = image := by
  rw [withoutScheme, rest?_eq_none_iff.2 h]
  rfl

/-- What the script puts in front is what it takes off again. -/
theorem withoutScheme_docker (image : Text) : withoutScheme (docker ++ image) = image := by
  simp [withoutScheme, docker, separator, rest?]

/-! ## The scheme -/

variable {sh}

theorem docker_append_ne (image : Text) : docker ++ image ≠ image := by
  intro h
  have hlength := congrArg List.length h
  simp only [docker, separator, List.length_append, List.length_cons] at hlength
  omega

/-- The URI is right where the test is. -/
theorem withScheme_eq_uri_iff {image : Text} :
    withScheme sh image = uri image ↔ (lacksScheme sh image = true ↔ ¬ HasScheme image) := by
  unfold withScheme uri
  by_cases hlacks : lacksScheme sh image = true
  · by_cases hscheme : HasScheme image
    · simp only [hlacks, hscheme, if_true, not_true, iff_false]
      exact docker_append_ne image
    · simp [hlacks, hscheme]
  · by_cases hscheme : HasScheme image
    · simp [hlacks, hscheme]
    · simp only [hlacks, hscheme, if_false, not_false_eq_true, iff_true]
      exact iff_of_false (Ne.symm (docker_append_ne image)) Bool.false_ne_true

theorem squashfsName_uri (image : Text) : squashfsName (uri image) = squashfsName image := by
  unfold uri
  split
  · rfl
  · rename_i h
    rw [squashfsName, squashfsName, withoutScheme_docker, withoutScheme_of_not_hasScheme h]

theorem normalises_iff (sh : Shell) (image : Text) :
    Normalises sh image ↔
      (lacksScheme sh image = true ↔ ¬ HasScheme image) ∧ arguments sh (uri image) = [uri image] := by
  unfold Normalises
  rw [← withScheme_eq_uri_iff]
  constructor
  · rintro ⟨huri, harguments, -⟩
    exact ⟨huri, huri ▸ harguments⟩
  · rintro ⟨huri, harguments⟩
    rw [huri]
    exact ⟨rfl, harguments, squashfsName_uri image, slash_notMem_squashfsName _, colon_notMem_squashfsName _⟩

/-! ## Plain images -/

theorem plain_solid {w : Text} (h : ∀ c ∈ w, plain c = true) : ∀ c ∈ w, isBlank c = false := by
  intro c hc
  have hplain := h c hc
  simp only [plain, Bool.and_eq_true, Bool.not_eq_true'] at hplain
  exact hplain.1

theorem arguments_plain {w : Text} (h : ∀ c ∈ w, plain c = true) (hne : w ≠ []) : arguments sh w = [w] := by
  rw [arguments, words_solid (plain_solid h) hne, List.flatMap_singleton, sh.glob_plain w h]

theorem docker_plain : ∀ c ∈ docker, plain c = true := List.all_eq_true.1 rfl

theorem uri_plain {image : Text} (h : ∀ c ∈ image, plain c = true) : ∀ c ∈ uri image, plain c = true := by
  unfold uri
  split
  · exact h
  · intro c hc
    exact (List.mem_append.1 hc).elim (docker_plain c) (h c)

/-- Where no file has a name like `*://*`, the plain images that come through are
those without a scheme. -/
theorem normalises_plain_iff {image : Text} (hglob : sh.glob ('*' :: separator ++ ['*']) = ['*' :: separator ++ ['*']])
    (h : ∀ c ∈ image, plain c = true) : Normalises sh image ↔ ¬ HasScheme image := by
  have hne : image ≠ '*' :: separator ++ ['*'] := by
    rintro rfl
    exact absurd (h '*' List.mem_cons_self) (by decide)
  have hlacks : lacksScheme sh image = true := by
    simp only [lacksScheme, hglob, decide_eq_true_eq]
    exact hne
  have huri : uri image ≠ [] := by
    unfold uri
    split
    · rename_i hscheme
      rintro rfl
      cases List.infix_nil.1 hscheme
    · simp [docker]
  rw [normalises_iff, hlacks]
  simp [arguments_plain (uri_plain h) huri]

/-- A directory without files. -/
def emptyDirectory : Shell where
  glob w := [w]
  glob_plain _ _ := rfl

/-- `docker://a`, of which the script makes `docker://docker://a`. -/
theorem not_normalises_docker : ¬ Normalises emptyDirectory (docker ++ ['a']) := by
  intro hnormalises
  have hscheme : HasScheme (docker ++ ['a']) := by decide
  exact (normalises_plain_iff rfl (List.all_eq_true.1 rfl)).1 hnormalises hscheme

end AzHop.GetContainer
