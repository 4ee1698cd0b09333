import AzHop.Lib.Objects
import AzHop.Lib.Replace
import AzHop.Lib.Yaml
/-!
# The password in the inventory

The deployment's output has the placeholder `__ADMIN_PASSWORD__` for the
password of the domain controllers. `yq` writes it as a file of YAML, in which
the scripts put the password with `sed`; what `sed` would take for its own is
escaped first, what YAML would is not.
-/
namespace AzHop.Inventory
open Lib.Objects (exists_of_mapM mapM_eq_map)
open Lib.Replace Lib.Yaml

/-- `__ADMIN_PASSWORD__`. -/
def placeholder : Text :=
  ['_', '_', 'A', 'D', 'M', 'I', 'N', '_', 'P', 'A', 'S', 'S', 'W', 'O', 'R', 'D', '_', '_']

/-- The alphabet of the form: `[\x20-\x7E]`. -/
structure Password where
  chars : Text
  printable : chars.all (fun c => ' ' ≤ c && c ≤ '~') = true

/-! ## What the deployment gives -/

/-- A key of the inventory. -/
structure Key where
  chars : Text
  legal : (!chars.isEmpty && chars.all fun c => c.isLower || c.isDigit || c == '_') = true

/-- A value as `yq` writes it, on its line: the text reads back as the value. -/
structure Shown where
  text : Text
  value : Value
  reads : value? (' ' :: text) = some (some value)
  line : '\n' ∉ text
  free : ¬placeholder <:+: text

/-- What stands for a key: a value, or the password. -/
inductive Content where
  | shown (s : Shown)
  | password

/-- A host of the inventory, with its variables. -/
structure Host where
  name : Key
  entries : List (Key × Content)
  nonempty : entries ≠ []

/-- What the inventory is made of: the addresses of the machines that are
deployed, and what depends on the jumpbox. -/
structure Deployment where
  admin_user : Shown
  sshTunelIp : Shown
  scheduler : Shown
  ccportal : Shown
  ondemand : Option Shown
  ad : Option Shown
  ad2 : Option Shown
  incomingSSHPort : Shown
  deployJumpbox : Bool
  deployer : Option Shown
  grafana : Option Shown
  ansible_ssh_common_args : Shown

def psrp : Shown := ⟨['p', 's', 'r', 'p'], .str ['p', 's', 'r', 'p'], rfl, by decide,
  fun h => absurd (h.subset List.mem_cons_self) (by decide)⟩

def http : Shown := ⟨['h', 't', 't', 'p'], .str ['h', 't', 't', 'p'], rfl, by decide,
  fun h => absurd (h.subset List.mem_cons_self) (by decide)⟩

/-- The empty string, in quotes. -/
def empty : Shown := ⟨['"', '"'], .str [], rfl, by decide, fun h => absurd (h.subset List.mem_cons_self) (by decide)⟩

/-- `socks5h://localhost:5985`. -/
def socks : Shown where
  text :=
    ['s', 'o', 'c', 'k', 's', '5', 'h', ':', '/', '/', 'l', 'o', 'c', 'a', 'l', 'h', 'o', 's', 't', ':', '5',
     '9', '8', '5']
  value := .str
    ['s', 'o', 'c', 'k', 's', '5', 'h', ':', '/', '/', 'l', 'o', 'c', 'a', 'l', 'h', 'o', 's', 't', ':', '5',
     '9', '8', '5']
  reads := rfl
  line := by decide
  free h := absurd (h.subset List.mem_cons_self) (by decide)

def all : Key := ⟨['a', 'l', 'l'], rfl⟩

def hosts : Key := ⟨['h', 'o', 's', 't', 's'], rfl⟩

def vars : Key := ⟨['v', 'a', 'r', 's'], rfl⟩

def localhost : Key := ⟨['l', 'o', 'c', 'a', 'l', 'h', 'o', 's', 't'], rfl⟩

def scheduler : Key := ⟨['s', 'c', 'h', 'e', 'd', 'u', 'l', 'e', 'r'], rfl⟩

def ccportal : Key := ⟨['c', 'c', 'p', 'o', 'r', 't', 'a', 'l'], rfl⟩

def ondemand : Key := ⟨['o', 'n', 'd', 'e', 'm', 'a', 'n', 'd'], rfl⟩

def ad : Key := ⟨['a', 'd'], rfl⟩

def ad2 : Key := ⟨['a', 'd', '2'], rfl⟩

def jumpbox : Key := ⟨['j', 'u', 'm', 'p', 'b', 'o', 'x'], rfl⟩

def deployer : Key := ⟨['d', 'e', 'p', 'l', 'o', 'y', 'e', 'r'], rfl⟩

def grafana : Key := ⟨['g', 'r', 'a', 'f', 'a', 'n', 'a'], rfl⟩

def psrp_ssh_proxy : Key := ⟨['p', 's', 'r', 'p', '_', 's', 's', 'h', '_', 'p', 'r', 'o', 'x', 'y'], rfl⟩

def ansible_host : Key := ⟨['a', 'n', 's', 'i', 'b', 'l', 'e', '_', 'h', 'o', 's', 't'], rfl⟩

def ansible_connection : Key :=
  ⟨['a', 'n', 's', 'i', 'b', 'l', 'e', '_', 'c', 'o', 'n', 'n', 'e', 'c', 't', 'i', 'o', 'n'], rfl⟩

def ansible_psrp_protocol : Key :=
  ⟨['a', 'n', 's', 'i', 'b', 'l', 'e', '_', 'p', 's', 'r', 'p', '_', 'p', 'r', 'o', 't', 'o', 'c', 'o', 'l'], rfl⟩

def ansible_user : Key := ⟨['a', 'n', 's', 'i', 'b', 'l', 'e', '_', 'u', 's', 'e', 'r'], rfl⟩

def ansible_password : Key :=
  ⟨['a', 'n', 's', 'i', 'b', 'l', 'e', '_', 'p', 'a', 's', 's', 'w', 'o', 'r', 'd'], rfl⟩

def ansible_psrp_proxy : Key :=
  ⟨['a', 'n', 's', 'i', 'b', 'l', 'e', '_', 'p', 's', 'r', 'p', '_', 'p', 'r', 'o', 'x', 'y'], rfl⟩

def ansible_ssh_port : Key :=
  ⟨['a', 'n', 's', 'i', 'b', 'l', 'e', '_', 's', 's', 'h', '_', 'p', 'o', 'r', 't'], rfl⟩

def ansible_ssh_common_args : Key :=
  ⟨['a', 'n', 's', 'i', 'b', 'l', 'e', '_', 's', 's', 'h', '_', 'c', 'o', 'm', 'm', 'o', 'n', '_', 'a', 'r',
    'g', 's'], rfl⟩

def ansible_ssh_user : Key :=
  ⟨['a', 'n', 's', 'i', 'b', 'l', 'e', '_', 's', 's', 'h', '_', 'u', 's', 'e', 'r'], rfl⟩

/-- A domain controller. -/
def controller (d : Deployment) (name : Key) (ip : Shown) : Host where
  name
  entries :=
    [(ansible_host, .shown ip), (ansible_connection, .shown psrp), (ansible_psrp_protocol, .shown http),
      (ansible_user, .shown d.admin_user), (ansible_password, .password), (psrp_ssh_proxy, .shown d.sshTunelIp),
      (ansible_psrp_proxy, .shown (if d.deployJumpbox then socks else empty))]
  nonempty := by simp

/-- A machine with an address only. -/
def machine (name : Key) (ip : Shown) : Host := ⟨name, [(ansible_host, .shown ip)], by simp⟩

/-- The machine that the scripts log on to, from outside or as the deployer itself. -/
def entrance (d : Deployment) (name : Key) (ip : Shown) : Host where
  name
  entries := [(ansible_host, .shown ip), (ansible_ssh_port, .shown d.incomingSSHPort),
    (ansible_ssh_common_args, .shown empty)]
  nonempty := by simp

/-- The hosts, in the order of the template. -/
def azhopHosts (d : Deployment) : List Host :=
  ⟨localhost, [(psrp_ssh_proxy, .shown d.sshTunelIp)], by simp⟩ ::
    (machine scheduler d.scheduler :: machine ccportal d.ccportal ::
      (d.ondemand.toList.map (machine ondemand) ++ d.ad.toList.map (controller d ad) ++
        d.ad2.toList.map (controller d ad2) ++ (if d.deployJumpbox then [entrance d jumpbox d.sshTunelIp] else []) ++
        d.deployer.toList.map (entrance d deployer) ++ d.grafana.toList.map (machine grafana)))

/-- The variables of all hosts. -/
def azhopVars (d : Deployment) : List (Key × Content) :=
  [(ansible_ssh_user, .shown d.admin_user), (ansible_ssh_common_args, .shown d.ansible_ssh_common_args)]

/-! ## The file -/

/-- A line of the file. -/
structure Row where
  indent : Nat
  key : Key
  content : Option Content

/-- A line for each variable, indented by `column`. -/
def entryRows (column : Nat) (entries : List (Key × Content)) : List Row := entries.map fun e => ⟨column, e.1, some e.2⟩

/-- `azhopInventory`, by lines. -/
def rows (d : Deployment) : List Row :=
  ⟨0, all, none⟩ :: ⟨2, hosts, none⟩ ::
    ((azhopHosts d).flatMap (fun h => ⟨4, h.name, none⟩ :: entryRows 6 h.entries) ++
      ⟨2, vars, none⟩ :: entryRows 4 (azhopVars d))

/-- What stands after a colon, with `password` for the password. -/
def after (password : Text) : Option Content → Text
  | none => []
  | some (.shown s) => ' ' :: s.text
  | some .password => ' ' :: password

/-- A line with `password` for the password. -/
def Row.source (password : Text) (r : Row) : Source := ⟨r.indent, r.key.chars, after password r.content⟩

/-- The inventory with `password` for the password. -/
def inventory (password : Text) (d : Deployment) : Text := print ((rows d).map (Row.source password))

/-! ## Putting the password in -/

/-- What `sed` reads otherwise on the right side of a substitution. -/
def special : List Char := ['&', '/', '\\']

/-- `sed 's/[&/\]/\\&/g' <<< $admin_pass`. -/
def escape (pass : Text) : Text := pass.flatMap fun c => if c ∈ special then ['\\', c] else [c]

/-- What `sed` makes of the right side of a substitution: `&` is the match, and
one of the three after a backslash is itself; other escapes are not read here. -/
def expand (found : Text) : Text → Option Text
  | [] => some []
  | '\\' :: c :: l => if c ∈ special then (expand found l).map (c :: ·) else none
  | c :: l =>
    if c = '&' then (expand found l).map (found ++ ·) else if c ∈ special then none else (expand found l).map (c :: ·)

/-- `sed -i "s/__ADMIN_PASSWORD__/$(..)/g" $azhop_root/playbooks/inventory`. -/
def substitute (admin_pass : Password) (file : Text) : Option Text :=
  (expand placeholder (escape admin_pass.chars)).map fun pass => replaceAll placeholder pass file

/-- The scalars of the inventory and their places. -/
def leaves (d : Deployment) : List (List Text × Content) :=
  ((azhopHosts d).flatMap fun h => h.entries.map fun e => ([all.chars, hosts.chars, h.name.chars, e.1.chars], e.2)) ++
    (azhopVars d).map fun e => ([all.chars, vars.chars, e.1.chars], e.2)

/-- The value that is meant, with `password` for the password. -/
def Content.value (password : Value) : Content → Value
  | shown s => s.value
  | .password => password

/-- The document that is meant. -/
def document (password : Value) (d : Deployment) : List Entry := (leaves d).map fun l => (l.1, l.2.value password)

/-- The file with the password in it reads as the document with the password. -/
def RoundTrip (d : Deployment) (admin_pass : Password) : Prop :=
  (substitute admin_pass (inventory placeholder d)).bind document? = some (document (.str admin_pass.chars) d)

/-! ## `sed` -/

/-- The escape is undone. -/
theorem expand_escape (found pass : Text) : expand found (escape pass) = some pass := by
  induction pass with
  | nil => rfl
  | cons c pass ih =>
    rw [escape, List.flatMap_cons]
    change expand found (_ ++ escape pass) = _
    split
    · rename_i hc
      rw [List.cons_append, List.singleton_append, expand, if_pos hc, ih]
      rfl
    · rename_i hc
      have hslash : c ≠ '\\' := fun h => hc (h ▸ by decide)
      have hamp : c ≠ '&' := fun h => hc (h ▸ by decide)
      rw [List.singleton_append]
      unfold expand
      split
      · rename_i heq
        cases heq
      · rename_i heq
        exact absurd (List.cons.inj heq).1 hslash
      · rename_i heq
        obtain ⟨rfl, rfl⟩ := List.cons.inj heq
        rw [if_neg hamp, if_neg hc, ih]
        rfl

theorem placeholder_ne_nil : placeholder ≠ [] := List.cons_ne_nil _ _

theorem isKey_key (k : Key) : isKey k.chars = true := by
  obtain ⟨hne, hall⟩ := Bool.and_eq_true_iff.1 k.legal
  refine Bool.and_eq_true_iff.2 ⟨hne, List.all_eq_true.2 fun c hc => ?_⟩
  have hlegal := List.all_eq_true.1 hall c hc
  have halphanum : c.isAlphanum = (c.isUpper || c.isLower || c.isDigit) := rfl
  rw [halphanum]
  simp only [Bool.or_eq_true] at hlegal ⊢
  rcases hlegal with (hlower | hdigit) | hunder
  · exact Or.inl (Or.inl (Or.inr hlower))
  · exact Or.inl (Or.inr hdigit)
  · exact Or.inr hunder

theorem free_key (k : Key) : ¬placeholder <:+: k.chars := by
  intro hin
  have hmem : 'A' ∈ k.chars := hin.subset (by decide)
  have hlegal := List.all_eq_true.1 (Bool.and_eq_true_iff.1 k.legal).2 'A' hmem
  cases hlegal

theorem replaceAll_cons_blank (pass l : Text) :
    replaceAll placeholder pass (' ' :: l) = ' ' :: replaceAll placeholder pass l :=
  replaceAll_append_cons placeholder_ne_nil (by decide) [] l

theorem replaceAll_blanks (pass : Text) (n : Nat) (l : Text) :
    replaceAll placeholder pass (List.replicate n ' ' ++ l) = List.replicate n ' ' ++ replaceAll placeholder pass l := by
  induction n with
  | zero => rfl
  | succ n ih => rw [List.replicate_succ, List.cons_append, replaceAll_cons_blank, ih, List.cons_append]

theorem replaceAll_after (pass : Text) (content : Option Content) :
    replaceAll placeholder pass (after placeholder content) = after pass content := by
  cases content with
  | none => rfl
  | some content =>
    cases content with
    | shown s => exact (replaceAll_cons_blank pass s.text).trans (congrArg _ (replaceAll_of_absent s.free))
    | password =>
      have hpat : replaceAll placeholder pass (placeholder ++ []) = _ := replaceAll_append_pat placeholder_ne_nil []
      rw [List.append_nil, replaceAll_nil, List.append_nil] at hpat
      exact (replaceAll_cons_blank pass placeholder).trans (congrArg _ hpat)

theorem replaceAll_source (pass : Text) (r : Row) :
    replaceAll placeholder pass (r.source placeholder).print = (r.source pass).print := by
  simp only [Source.print, Row.source]
  rw [replaceAll_blanks, replaceAll_append_cons placeholder_ne_nil (by decide), replaceAll_of_absent (free_key r.key),
    replaceAll_after]

/-- The placeholder is replaced where the password is to stand. -/
theorem replaceAll_inventory (pass : Text) (d : Deployment) :
    replaceAll placeholder pass (inventory placeholder d) = inventory pass d := by
  simp only [inventory, print]
  induction rows d with
  | nil => rfl
  | cons r rs ih =>
    rw [List.map_cons, List.map_cons, List.flatMap_cons, List.flatMap_cons, List.append_assoc, List.append_assoc,
      List.singleton_append, List.singleton_append, replaceAll_append_cons placeholder_ne_nil (by decide), ih,
      replaceAll_source]

/-! ## The document -/

theorem newline_not_mem (admin_pass : Password) : '\n' ∉ admin_pass.chars := fun h => by
  have hprintable := List.all_eq_true.1 admin_pass.printable _ h
  cases hprintable

theorem legal_source {pass : Text} (hpass : '\n' ∉ pass) (r : Row) : (r.source pass).Legal := by
  refine ⟨isKey_key r.key, ?_⟩
  obtain ⟨indent, key, content⟩ := r
  cases content with
  | none => exact List.not_mem_nil
  | some content =>
    cases content with
    | shown s => exact fun h => (List.mem_cons.1 h).elim (fun hc => by cases hc) s.line
    | password => exact fun h => (List.mem_cons.1 h).elim (fun hc => by cases hc) hpass

/-- The value the text reads back as. -/
def Content.value? (password : Option Value) : Content → Option Value
  | shown s => some s.value
  | .password => password

/-- The text of a line. -/
def Row.line (password : Option Value) (r : Row) : Line :=
  ⟨r.indent, r.key.chars, r.content.bind (Content.value? password)⟩

theorem read?_source {pass : Text} {v : Option Value} (h : value? (' ' :: pass) = some v) (r : Row) :
    (r.source pass).read? = some (r.line v) := by
  obtain ⟨indent, key, content⟩ := r
  cases content with
  | none => rfl
  | some content =>
    cases content with
    | shown s => exact congrArg (Option.map _) s.reads
    | password => exact congrArg (Option.map _) h

/-- A host as a mapping of the document. -/
def Host.toSection (v : Option Value) (h : Host) : Section where
  key := h.name.chars
  leaves := h.entries.map fun e => (e.1.chars, e.2.value? v)
  nonempty hnil := h.nonempty (List.map_eq_nil_iff.1 hnil)

/-- The lines after the hosts. -/
def varsSection (v : Option Value) (d : Deployment) : Section where
  key := vars.chars
  leaves := (azhopVars d).map fun e => (e.1.chars, e.2.value? v)
  nonempty hnil := by cases hnil

theorem line_entryRows (v : Option Value) (column : Nat) (entries : List (Key × Content)) :
    (entryRows column entries).map (Row.line v) = leafLines column (entries.map fun e => (e.1.chars, e.2.value? v)) := by
  rw [entryRows, leafLines, List.map_map, List.map_map]
  rfl

theorem lines_rows (v : Option Value) (d : Deployment) : (rows d).map (Row.line v) =
    ⟨0, all.chars, none⟩ :: ⟨2, hosts.chars, none⟩ ::
      (((azhopHosts d).map (Host.toSection v)).flatMap (Section.lines 4 6) ++ (varsSection v d).lines 2 4) := by
  have hhost : ∀ h : Host, (⟨4, h.name, none⟩ :: entryRows 6 h.entries).map (Row.line v) =
      (h.toSection v).lines 4 6 := by
    intro h
    rw [List.map_cons, line_entryRows]
    rfl
  have hvars : (⟨2, vars, none⟩ :: entryRows 4 (azhopVars d)).map (Row.line v) = (varsSection v d).lines 2 4 := by
    rw [List.map_cons, line_entryRows]
    rfl
  rw [rows, List.map_cons, List.map_cons, List.map_append, List.map_flatMap, hvars, List.flatMap_map]
  simp only [hhost]
  rfl

theorem getD_value? (v : Option Value) (content : Content) :
    (content.value? v).getD (.typed []) = content.value (v.getD (.typed [])) := by cases content <;> rfl

theorem entries_sections (v : Option Value) (d : Deployment) :
    ((azhopHosts d).map (Host.toSection v)).flatMap (Section.entries [all.chars, hosts.chars]) ++
      (varsSection v d).entries [all.chars] = document (v.getD (.typed [])) d := by
  simp only [document, leaves, List.map_append, List.map_flatMap, List.flatMap_map, Section.entries, leafEntries,
    Host.toSection, varsSection, List.map_map, Function.comp_def, getD_value?]
  rfl

/-- The lines are those of the document. -/
theorem assemble_rows (v : Option Value) (d : Deployment) :
    assemble [(0, [])] ((rows d).map (Row.line v)) = some (document (v.getD (.typed [])) d) := by
  have hvars : ∀ line ∈ ((varsSection v d).lines 2 4).head?, line.indent < 4 := fun line hline => by
    obtain rfl := Option.some.inj hline
    change 2 < 4
    decide
  have hsections := assemble_sections (by decide : 4 < 6) [all.chars, hosts.chars] [(2, [all.chars]), (0, [])]
    ((azhopHosts d).map (Host.toSection v)) ((varsSection v d).lines 2 4) fun line hline => Nat.le_of_lt (hvars line hline)
  have hsection := assemble_section (by decide : 2 < 4) [all.chars] [(0, [])] (varsSection v d) []
    fun line hline => by cases hline
  rw [assemble_pop hvars] at hsections
  rw [List.append_nil] at hsection
  obtain ⟨below, rest, hindent, hlines⟩ : ∃ (below : Line) (rest : List Line), below.indent = 4 ∧
      ((azhopHosts d).map (Host.toSection v)).flatMap (Section.lines 4 6) ++ (varsSection v d).lines 2 4 =
        below :: rest := ⟨⟨4, localhost.chars, none⟩, _, rfl, rfl⟩
  have hall : 0 < (⟨2, hosts.chars, none⟩ : Line).indent := by decide
  have hhosts : 2 < below.indent := by rw [hindent]; decide
  rw [lines_rows, ← entries_sections, hlines, assemble_open [] [] all.chars (below :: rest) hall]
  change assemble ((2, [all.chars]) :: [(0, [])]) _ = _
  rw [assemble_open [all.chars] [(0, [])] hosts.chars rest hhosts, hindent, ← hlines]
  refine hsections.trans ?_
  rw [hsection]
  exact congrArg (fun es => some (_ ++ es)) (List.append_nil _)

/-! ## The round trip -/

/-- No controller, no password. -/
def NoPassword (d : Deployment) : Prop :=
  (∀ h ∈ azhopHosts d, ∀ e ∈ h.entries, e.2 ≠ .password) ∧ ∀ e ∈ azhopVars d, e.2 ≠ .password

theorem noPassword_iff (d : Deployment) : NoPassword d ↔ d.ad = none ∧ d.ad2 = none := by
  have hvars : ∀ e ∈ azhopVars d, e.2 ≠ .password := by simp [azhopVars]
  have hmachine : ∀ name ip, ∀ e ∈ (machine name ip).entries, e.2 ≠ .password := by simp [machine]
  have hentrance : ∀ name ip, ∀ e ∈ (entrance d name ip).entries, e.2 ≠ .password := by simp [entrance]
  have hcontroller : ∀ name ip, ¬ ∀ e ∈ (controller d name ip).entries, e.2 ≠ .password :=
    fun name ip h => h (ansible_password, .password) (by simp [controller]) rfl
  rw [NoPassword, and_iff_left hvars]
  constructor
  · intro h
    constructor
    · refine Option.eq_none_iff_forall_ne_some.2 fun ip hip => hcontroller ad ip (h _ ?_)
      simp [azhopHosts, hip]
    · refine Option.eq_none_iff_forall_ne_some.2 fun ip hip => hcontroller ad2 ip (h _ ?_)
      simp [azhopHosts, hip]
  · rintro ⟨had, had2⟩ h hh
    simp only [azhopHosts, had, had2, Option.toList_none, List.map_nil, List.append_nil, List.mem_cons,
      List.mem_append, List.mem_map, List.mem_ite_nil_right, List.not_mem_nil, or_false] at hh
    rcases hh with rfl | rfl | rfl | ((⟨ip, -, rfl⟩ | ⟨-, rfl⟩) | ⟨ip, -, rfl⟩) | ⟨ip, -, rfl⟩
    · simp
    · exact hmachine _ _
    · exact hmachine _ _
    · exact hmachine _ _
    · exact hentrance _ _
    · exact hentrance _ _
    · exact hmachine _ _

theorem forall_leaves_iff (d : Deployment) : (∀ l ∈ leaves d, l.2 ≠ .password) ↔ NoPassword d := by
  simp only [leaves, NoPassword, List.forall_mem_append, List.mem_flatMap, List.forall_mem_map]
  refine and_congr_left fun _ => ⟨fun h host hh e he => ?_, fun h l hl => ?_⟩
  · exact h _ ⟨host, hh, List.mem_map_of_mem he⟩
  · obtain ⟨host, hh, hl⟩ := hl
    obtain ⟨e, he, rfl⟩ := List.mem_map.1 hl
    exact h host hh e he

theorem forall_rows_iff (d : Deployment) : (∀ r ∈ rows d, r.content ≠ some .password) ↔ NoPassword d := by
  have hentries : ∀ column entries, (∀ r ∈ entryRows column entries, r.content ≠ some .password) ↔
      ∀ e ∈ entries, e.2 ≠ .password := by
    intro column entries
    rw [entryRows, List.forall_mem_map]
    exact forall₂_congr fun e _ => by simp
  have hnone : (none : Option Content) ≠ some .password := fun h => by cases h
  simp only [rows, NoPassword, List.forall_mem_cons, List.forall_mem_append, hentries]
  refine ⟨fun h => ⟨fun host hh e he => ?_, h.2.2.2.2⟩, fun h => ⟨hnone, hnone, fun r hr => ?_, hnone, h.2⟩⟩
  · refine (hentries 6 host.entries).1 (fun r hr => h.2.2.1 r (List.mem_flatMap.2 ⟨host, hh, ?_⟩)) e he
    exact List.mem_cons_of_mem _ hr
  · obtain ⟨host, hh, hr⟩ := List.mem_flatMap.1 hr
    rcases List.mem_cons.1 hr with rfl | hr
    · exact hnone
    · exact (hentries 6 host.entries).2 (h.1 host hh) r hr

/-- The document tells the passwords apart, if it has one. -/
theorem document_inj {d : Deployment} (h : ¬NoPassword d) {v w : Value} (heq : document v d = document w d) : v = w := by
  rw [← forall_leaves_iff] at h
  simp only [not_forall, ne_eq, not_not] at h
  obtain ⟨⟨path, content⟩, hl, rfl⟩ := h
  exact (Prod.mk.inj (List.map_inj_left.1 heq _ hl)).2

theorem document_congr {d : Deployment} (h : NoPassword d) (v w : Value) : document v d = document w d := by
  refine List.map_congr_left fun l hl => ?_
  have hl := (forall_leaves_iff d).2 h l hl
  obtain ⟨path, content⟩ := l
  cases content with
  | shown s => rfl
  | password => exact absurd rfl hl

/-- What is read from the file is what is read from its lines. -/
theorem substitute_bind (admin_pass : Password) (d : Deployment) :
    (substitute admin_pass (inventory placeholder d)).bind document? =
      ((rows d).mapM fun r : Row => (r.source admin_pass.chars).read?).bind (assemble [(0, [])]) := by
  have hlegal : ∀ l ∈ (rows d).map (Row.source admin_pass.chars), l.Legal := by
    intro l hl
    obtain ⟨r, -, rfl⟩ := List.mem_map.1 hl
    exact legal_source (newline_not_mem admin_pass) r
  have hfile : substitute admin_pass (inventory placeholder d) = some (inventory admin_pass.chars d) := by
    rw [substitute, expand_escape, Option.map_some, replaceAll_inventory]
  rw [hfile, Option.bind_some, inventory, document?_print hlegal, List.mapM_map]
  rfl

theorem read?_of_ne (pass : Text) {r : Row} (h : r.content ≠ some .password) :
    (r.source pass).read? = some (r.line none) := by
  obtain ⟨indent, key, content⟩ := r
  cases content with
  | none => rfl
  | some content =>
    cases content with
    | shown s => exact congrArg (Option.map _) s.reads
    | password => exact absurd rfl h

theorem roundTrip_of_value {d : Deployment} {admin_pass : Password} {v : Option Value}
    (h : ∀ r ∈ rows d, (r.source admin_pass.chars).read? = some (r.line v)) :
    RoundTrip d admin_pass ↔ document (v.getD (.typed [])) d = document (.str admin_pass.chars) d := by
  rw [RoundTrip, substitute_bind, mapM_eq_map h, Option.bind_some, assemble_rows, Option.some.injEq]

/-- The inventory comes back just when the password is plain, or there is no
domain controller. -/
theorem roundTrip_iff (d : Deployment) (admin_pass : Password) :
    RoundTrip d admin_pass ↔ (d.ad = none ∧ d.ad2 = none) ∨ Plain admin_pass.chars := by
  rw [← noPassword_iff, ← value?_str_iff]
  by_cases hno : NoPassword d
  -- Without a password no line changes.
  · refine iff_of_true ?_ (Or.inl hno)
    rw [roundTrip_of_value fun r hr => read?_of_ne _ ((forall_rows_iff d).2 hno r hr)]
    exact document_congr hno _ _
  · rw [or_iff_right hno]
    cases hvalue : value? (' ' :: admin_pass.chars) with
    -- The line of the password is not read, and so the file is not.
    | none =>
      refine iff_of_false (fun h => ?_) (fun h => by cases h)
      rw [RoundTrip, substitute_bind] at h
      obtain ⟨lines, hlines, -⟩ := Option.bind_eq_some_iff.1 h
      refine hno ((forall_rows_iff d).1 fun r hr hcontent => ?_)
      obtain ⟨line, hline⟩ := exists_of_mapM hlines r hr
      obtain ⟨indent, key, content⟩ := r
      obtain rfl : content = some .password := hcontent
      have hnone : (Row.source admin_pass.chars ⟨indent, key, some .password⟩).read? = none :=
        congrArg (Option.map _) hvalue
      rw [hnone] at hline
      cases hline
    -- It is read as `v`, the lines around it as they are.
    | some v =>
      rw [roundTrip_of_value fun r _ => read?_source hvalue r, Option.some.injEq]
      constructor
      · intro h
        have hv := document_inj hno h
        cases v with
        | none => cases hv
        | some v => exact congrArg some hv
      · rintro rfl
        rfl

/-- A password that ends where YAML reads a comment. -/
def commented : Password := ⟨['S', 'e', 'c', 'r', 'e', 't', '1', '2', '3', '4', ' ', '#', '5'], rfl⟩

def address : Shown := ⟨['1', '0', '.', '0', '.', '0', '.', '5'], .str ['1', '0', '.', '0', '.', '0', '.', '5'], rfl, by decide,
  fun h => absurd (h.subset List.mem_cons_self) (by decide)⟩

def admin : Shown := ⟨['h', 'p', 'c', 'a', 'd', 'm', 'i', 'n'], .str ['h', 'p', 'c', 'a', 'd', 'm', 'i', 'n'], rfl, by decide,
  fun h => absurd (h.subset List.mem_cons_self) (by decide)⟩

def port : Shown := ⟨['2', '2'], .typed ['2', '2'], rfl, by decide,
  fun h => absurd (h.subset List.mem_cons_self) (by decide)⟩

/-- A deployment with a domain controller, from a deployer and without a jumpbox. -/
def domain : Deployment where
  admin_user := admin
  sshTunelIp := empty
  scheduler := address
  ccportal := address
  ondemand := none
  ad := some address
  ad2 := none
  incomingSSHPort := port
  deployJumpbox := false
  deployer := some address
  grafana := none
  ansible_ssh_common_args := empty

theorem not_roundTrip_commented : ¬RoundTrip domain commented := by
  intro hround
  have hvalue : value? (' ' :: commented.chars) = some (some (.str ['S', 'e', 'c', 'r', 'e', 't', '1', '2', '3', '4'])) := rfl
  have hpassword : ¬NoPassword domain := fun hno => by
    have had := ((noPassword_iff domain).1 hno).1
    cases had
  rw [roundTrip_of_value fun r _ => read?_source hvalue r] at hround
  have hsame := document_inj hpassword hround
  exact absurd hsame (by decide)

end AzHop.Inventory
