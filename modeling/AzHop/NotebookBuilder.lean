import AzHop.Lib.Python
/-!
# The notebook of an AzureML session

`build_notebook` writes the values of a form into the code cells of a notebook
as they are: six of them between single quotes, two between double quotes and
the number of instances bare.

The cells are read here as Python reads them. They call the functions of the
wrapper on the values just when each value stands for itself.
-/
namespace AzHop.NotebookBuilder
open Lib.Python

/-- The values of the form, by the parameters of `build_notebook`. -/
structure Form where
  subscription : Text
  location : Text
  resourcegroup : Text
  workspace : Text
  amlenv : Text
  machinetype : Text
  maxinstances : Numeral
  jobfile : Text
  jobinputs : Text

/-! ## The cells -/

/-- The module the first cell imports. -/
def amlwrapperfunctions : Text :=
  ['a', 'm', 'l', 'w', 'r', 'a', 'p', 'p', 'e', 'r', 'f', 'u', 'n', 'c', 't', 'i', 'o', 'n', 's']

/-- The name it is imported under. -/
def aml : Text := ['a', 'm', 'l']

/-- The function the second cell calls. -/
def login : Text := ['l', 'o', 'g', 'i', 'n']

/-- The function the third cell calls. -/
def setupenv : Text := ['s', 'e', 't', 'u', 'p', 'e', 'n', 'v']

/-- The function the fourth cell calls. -/
def runjob : Text := ['r', 'u', 'n', 'j', 'o', 'b']

/-- The keyword for `subscription`. -/
def subscription_id : Text := ['s', 'u', 'b', 's', 'c', 'r', 'i', 'p', 't', 'i', 'o', 'n', '_', 'i', 'd']

/-- The keyword for `location`. -/
def location : Text := ['l', 'o', 'c', 'a', 't', 'i', 'o', 'n']

/-- The keyword for `resourcegroup`. -/
def resource_group : Text := ['r', 'e', 's', 'o', 'u', 'r', 'c', 'e', '_', 'g', 'r', 'o', 'u', 'p']

/-- The keyword for `workspace`. -/
def workspace_name : Text := ['w', 'o', 'r', 'k', 's', 'p', 'a', 'c', 'e', '_', 'n', 'a', 'm', 'e']

/-- The keyword for `amlenv`. -/
def amlenv : Text := ['a', 'm', 'l', 'e', 'n', 'v']

/-- The keyword for `machinetype`. -/
def machine_type : Text := ['m', 'a', 'c', 'h', 'i', 'n', 'e', '_', 't', 'y', 'p', 'e']

/-- The keyword for `maxinstances`, whose value stands without quotes. -/
def max_instances : Text := ['m', 'a', 'x', '_', 'i', 'n', 's', 't', 'a', 'n', 'c', 'e', 's']

/-- The variable for the job. -/
def job_handler : Text := ['j', 'o', 'b', '_', 'h', 'a', 'n', 'd', 'l', 'e', 'r']

/-- The variable for the client. -/
def aml_client : Text := ['a', 'm', 'l', '_', 'c', 'l', 'i', 'e', 'n', 't']

/-- `import amlwrapperfunctions as aml`. -/
def code_import : Text := 
  ['i', 'm', 'p', 'o', 'r', 't', ' ', 'a', 'm', 'l', 'w', 'r', 'a', 'p', 'p', 'e', 'r', 'f', 'u', 'n', 'c', 't',
    'i', 'o', 'n', 's', ' ', 'a', 's', ' ', 'a', 'm', 'l']

/-- `aml.login()`. -/
def code_login : Text := ['a', 'm', 'l', '.', 'l', 'o', 'g', 'i', 'n', '(', ')']

/-- `{key}='{value}',` and the blanks before the next key. -/
def keyword (key value rest : Text) : Text :=
  key ++ '=' :: '\'' :: (value ++ '\'' :: ',' :: '\n' :: (List.replicate 13 ' ' ++ rest))

/-- `aml.setupenv(subscription_id='{subscription}', ..., max_instances={maxinstances})`. -/
def code_setup (f : Form) : Text :=
  aml ++ '.' :: (setupenv ++ '(' ::
    (keyword subscription_id f.subscription <|
      keyword location f.location <|
      keyword resource_group f.resourcegroup <|
      keyword workspace_name f.workspace <|
      keyword amlenv f.amlenv <|
      keyword machine_type f.machinetype <|
      max_instances ++ '=' :: (f.maxinstances.text ++ [')'])))

/-- `job_handler, aml_client = aml.runjob("{jobfile}", "{jobinputs}")`. -/
def code_jobrun (f : Form) : Text :=
  job_handler ++ ',' :: ' ' :: (aml_client ++ ' ' :: '=' :: ' ' :: (aml ++ '.' :: (runjob ++ '(' ::
    '"' :: (f.jobfile ++ '"' :: ',' :: ' ' :: '"' :: (f.jobinputs ++ ['"', ')'])))))

/-- `aml_client.jobs.stream(job_handler.name)`. -/
def code_jobstream : Text :=
  ['a', 'm', 'l', '_', 'c', 'l', 'i', 'e', 'n', 't', '.', 'j', 'o', 'b', 's', '.', 's', 't', 'r', 'e', 'a', 'm',
    '(', 'j', 'o', 'b', '_', 'h', 'a', 'n', 'd', 'l', 'e', 'r', '.', 'n', 'a', 'm', 'e', ')']

/-- The code cells, after a cell of text. -/
def build_notebook (f : Form) : List Text := [code_import, code_login, code_setup f, code_jobrun f, code_jobstream]

/-! ## What they are to do -/

/-- The arguments of `setupenv`, with the values of the form. -/
def setup_args (f : Form) : List Arg :=
  [⟨some subscription_id, .str f.subscription⟩, ⟨some location, .str f.location⟩,
    ⟨some resource_group, .str f.resourcegroup⟩, ⟨some workspace_name, .str f.workspace⟩,
    ⟨some amlenv, .str f.amlenv⟩, ⟨some machine_type, .str f.machinetype⟩,
    ⟨some max_instances, .int f.maxinstances.value⟩]

/-- The arguments of `runjob`, with the values of the form. -/
def jobrun_args (f : Form) : List Arg := [⟨none, .str f.jobfile⟩, ⟨none, .str f.jobinputs⟩]

/-- The attribute of the client the last cell reads. -/
def jobs : Text := ['j', 'o', 'b', 's']

/-- The method the last cell calls. -/
def stream : Text := ['s', 't', 'r', 'e', 'a', 'm']

/-- The attribute of the job the last cell passes. -/
def name : Text := ['n', 'a', 'm', 'e']

/-- The statements of the notebook, with the values of the form. -/
def intended (f : Form) : List Stmt :=
  [.import_as amlwrapperfunctions aml, .call ⟨[aml, login], []⟩, .call ⟨[aml, setupenv], setup_args f⟩,
    .assign job_handler aml_client ⟨[aml, runjob], jobrun_args f⟩,
    .call ⟨[aml_client, jobs, stream], [⟨none, .path [job_handler, name]⟩]⟩]

/-- Each cell is one statement of Python, and the one it is to be. -/
def Executes (f : Form) : Prop := (build_notebook f).map read? = (intended f).map some

/-- The first cell is the import. -/
theorem read_import : read? code_import = some (.import_as amlwrapperfunctions aml) := rfl

/-- The second cell is the login. -/
theorem read_login : read? code_login = some (.call ⟨[aml, login], []⟩) := rfl

/-- The last cell waits for the job. -/
theorem read_jobstream :
    read? code_jobstream = some (.call ⟨[aml_client, jobs, stream], [⟨none, .path [job_handler, name]⟩]⟩) := rfl

theorem readArgs?_keyword {key : Text} (hkey : isName key = true) (value rest : Text) (arg : Arg) (args : List Arg) :
    readArgs? (keyword key value rest) = some (⟨some key, .str value⟩ :: arg :: args) ↔
      plain '\'' value = true ∧ readArgs? rest = some (arg :: args) :=
  readArgs?_keyword_iff hkey rfl value 13 rest arg args

/-- The third cell is the call it is to be just when its values stand for themselves. -/
theorem read_setup_iff (f : Form) :
    read? (code_setup f) = some (.call ⟨[aml, setupenv], setup_args f⟩) ↔
      plain '\'' f.subscription = true ∧ plain '\'' f.location = true ∧ plain '\'' f.resourcegroup = true ∧
        plain '\'' f.workspace = true ∧ plain '\'' f.amlenv = true ∧ plain '\'' f.machinetype = true ∧
        f.maxinstances.canonical := by
  have hcall := read?_call (a := aml) (b := setupenv) rfl rfl (keyword subscription_id f.subscription <|
    keyword location f.location <| keyword resource_group f.resourcegroup <|
    keyword workspace_name f.workspace <| keyword amlenv f.amlenv <| keyword machine_type f.machinetype <|
    max_instances ++ '=' :: (f.maxinstances.text ++ [')']))
  rw [code_setup, hcall, Option.map_eq_some_iff]
  have hargs : ∀ o : Option (List Arg), (∃ args, o = some args ∧ Stmt.call ⟨[aml, setupenv], args⟩ =
      Stmt.call ⟨[aml, setupenv], setup_args f⟩) ↔ o = some (setup_args f) := by
    intro o
    constructor
    · rintro ⟨args, rfl, heq⟩
      rw [(Call.mk.inj (Stmt.call.inj heq)).2]
    · exact fun h => ⟨_, h, rfl⟩
  rw [hargs, setup_args, readArgs?_keyword rfl, readArgs?_keyword rfl, readArgs?_keyword rfl, readArgs?_keyword rfl,
    readArgs?_keyword rfl, readArgs?_keyword rfl, readArgs?_int_iff rfl]

/-- So is the fourth, whose values stand between double quotes. -/
theorem read_jobrun_iff (f : Form) :
    read? (code_jobrun f) = some (.assign job_handler aml_client ⟨[aml, runjob], jobrun_args f⟩) ↔
      plain '"' f.jobfile = true ∧ plain '"' f.jobinputs = true := by
  rw [code_jobrun, read?_assign rfl rfl rfl rfl, Option.map_eq_some_iff,
    ← readArgs?_last_iff (q := '"') rfl f.jobinputs, ← readArgs?_positional_iff (q := '"') rfl f.jobfile]
  constructor
  · rintro ⟨args, hargs, heq⟩
    rw [hargs, (Call.mk.inj (Stmt.assign.inj heq).2.2).2]
    rfl
  · exact fun h => ⟨_, h, rfl⟩

/-- The cells do what they are to do just when the values stand for themselves
between their quotes, and the number of instances has no zeros in front. -/
theorem executes_iff (f : Form) : Executes f ↔
    (plain '\'' f.subscription = true ∧ plain '\'' f.location = true ∧ plain '\'' f.resourcegroup = true ∧
      plain '\'' f.workspace = true ∧ plain '\'' f.amlenv = true ∧ plain '\'' f.machinetype = true ∧
      f.maxinstances.canonical) ∧
    plain '"' f.jobfile = true ∧ plain '"' f.jobinputs = true := by
  rw [← read_setup_iff, ← read_jobrun_iff]
  simp only [Executes, build_notebook, intended, List.map_cons, List.map_nil, List.cons.injEq, read_import, read_login,
    read_jobstream, true_and, and_true]

/-- A resource group with an apostrophe. -/
def owners : Form where
  subscription := ['s']
  location := ['e', 'a', 's', 't', 'u', 's']
  resourcegroup := ['b', 'o', 'b', '\'', 's']
  workspace := ['w']
  amlenv := ['e']
  machinetype := ['m']
  maxinstances := ⟨.none, ['2'], rfl⟩
  jobfile := ['j']
  jobinputs := []

/-- The apostrophe ends the literal, and the third cell is no Python. -/
theorem not_executes_owners : ¬ Executes owners := by
  intro hcells
  simp only [Executes, build_notebook, intended, List.map_cons, List.cons.injEq] at hcells
  have hplain := (read_setup_iff owners).1 hcells.2.2.1
  cases hplain.2.2.1

end AzHop.NotebookBuilder
