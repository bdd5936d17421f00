/-
Scenarios: what each module of the prompt would show right now. A module without a value, or with an
empty one, shows nothing.
-/
import PromptTheme.Json.Reader
import PromptTheme.Json.Record
import PromptTheme.Text.Letters

namespace PromptTheme

structure Scenario where
  id : String := ""
  name : String := ""
  description : String := ""
  /-- The last command failed. -/
  error : Bool := false
  values : Dict String := .empty

namespace Scenario

instance : Inhabited Scenario := ⟨{}⟩

/-- The prompt shows its error form: the last command failed, or the name mentions an error, in any
case. Outside ASCII no letter has one of the letters of that word as its small form. -/
def isError (s : Scenario) : Bool :=
  s.error || Text.containsAnyCase "error".toList s.name.toList

/-- The value of a module that shows something. -/
def value? (s : Scenario) (module : String) : Option String :=
  (s.values.find? module).filter fun v => !v.isEmpty

/-! ## Reading and writing -/

/-- Reads a scenario whose fields may all be left out. -/
def ofNode? (n : Json.Node) : Option Scenario := do
  let r ← Json.Record.ofNode? ["id", "name", "description", "error", "values"] n
  let id ← r.getD? 0 Json.Node.string? ""
  let name ← r.getD? 1 Json.Node.string? ""
  let description ← r.getD? 2 Json.Node.string? ""
  let error ← r.getD? 3 Json.Node.bool? false
  let values ← r.getD? 4 Json.Node.strings? .empty
  some ⟨id, name, description, error, values⟩

/-- Reads a scenario from JSON text. -/
def ofJson? (text : String) : Option Scenario := (Json.parse? text).bind ofNode?

def toValue (s : Scenario) : Value := .table [
  ("description", .string s.description),
  ("error", .bool s.error),
  ("id", .string s.id),
  ("name", .string s.name),
  ("values", .table (s.values.entries.map fun (k, v) => (k, .string v)))]

/-! ## Preview states -/

/-- The states that a preview offers, from a clean repository to a failed command. -/
def builtin : List Scenario := [
  ⟨"clean", "Clean State", "Clean git repository on main branch", false, .ofList [
    ("username", "jules"),
    ("hostname", "macbook-pro"),
    ("directory", "~/projects/starship-theme-creator"),
    ("git_branch", "main"),
    ("package", "v1.0.0"),
    ("cmd_duration", "2s"),
    ("character", "❯")]⟩,
  ⟨"dev", "Development State", "Active development with modified files", false, .ofList [
    ("username", "jules"),
    ("hostname", "dev-server"),
    ("directory", "~/work/api-service"),
    ("git_branch", "feature/auth-flow"),
    ("git_status", "[3~](yellow) [+1](green)"),
    ("git_metrics", "+120 -45"),
    ("nodejs", "v18.16.0"),
    ("docker_context", "dev-context"),
    ("package", "v0.5.2"),
    ("cmd_duration", "500ms"),
    ("character", "❯")]⟩,
  ⟨"multilang", "Multi-Language", "Project using multiple languages", false, .ofList [
    ("username", "jules"),
    ("hostname", "polyglot"),
    ("directory", "~/code/fullstack-app"),
    ("git_branch", "develop"),
    ("git_status", "⇡2 ⇣1"),
    ("nodejs", "v20.2.0"),
    ("rust", "v1.70.0"),
    ("python", "v3.11.4"),
    ("package", "v2.0.0-beta"),
    ("cmd_duration", "12s"),
    ("character", "❯")]⟩,
  ⟨"devops", "DevOps Context", "Cloud and container context", false, .ofList [
    ("username", "ops"),
    ("hostname", "bastion"),
    ("directory", "~/infra/k8s-prod"),
    ("git_branch", "production"),
    ("docker_context", "registry.example.com"),
    ("kubernetes", "prod-cluster-us-east"),
    ("aws", "us-west-2"),
    ("gcloud", "my-project"),
    ("azure", "subscription-1"),
    ("character", "#")]⟩,
  ⟨"error", "Error State", "Failed command and git conflicts", true, .ofList [
    ("username", "jules"),
    ("hostname", "macbook-pro"),
    ("directory", "~/projects/broken-build"),
    ("git_branch", "fix/urgent-bug"),
    ("git_state", "MERGING"),
    ("git_status", "x5 !2"),
    ("nodejs", "v14.0.0"),
    ("package", "v0.0.1"),
    ("cmd_duration", "1m 30s"),
    ("character", "✖")]⟩]

def find? (id : String) : Option Scenario := builtin.find? fun s => s.id = id

end Scenario

end PromptTheme
