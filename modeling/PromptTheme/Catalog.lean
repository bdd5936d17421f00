/-
The catalog of prompt modules that an editor offers, and the top-level keys of a configuration that
are settings and no modules.
-/

namespace PromptTheme

/-- The groups of the module picker. -/
inductive Category where
  | core
  | vcs
  | languages
  | tools
  | cloud
  | system
deriving DecidableEq

namespace Category

def all : List Category := [core, vcs, languages, tools, cloud, system]

def name : Category → String
  | core => "core"
  | vcs => "vcs"
  | languages => "languages"
  | tools => "tools"
  | cloud => "cloud"
  | system => "system"

def ofName? (name : String) : Option Category := all.find? fun c => c.name = name

end Category

/-- What the catalog says about a module. -/
structure CatalogEntry where
  id : String
  name : String
  description : String
  category : Category
  icon : String
  enabled : Bool
  /-- Its symbols need a patched font. -/
  nerdFont : Bool := false
  /-- It runs a command or walks the file system for each prompt. -/
  expensive : Bool := false
deriving DecidableEq

namespace Catalog

/-- All modules, grouped by category. -/
def entries : List CatalogEntry := [
  ⟨"username", "Username", "Shows current username", .core, "👤", true, false, false⟩,
  ⟨"hostname", "Hostname", "Shows system hostname", .core, "💻", true, false, false⟩,
  ⟨"directory", "Directory", "Current working directory", .core, "📂", true, false, false⟩,
  ⟨"character", "Character", "The prompt character (usually ❯)", .core, "➜", true, false, false⟩,
  ⟨"line_break", "Line Break", "Splits prompt into two lines", .core, "↵", false, false, false⟩,
  ⟨"cmd_duration", "Cmd Duration", "Shows how long the last command took", .core, "⏱️", true,
    false, false⟩,
  ⟨"time", "Time", "Current time", .core, "🕒", false, false, false⟩,
  ⟨"jobs", "Jobs", "Number of background jobs", .core, "⚙️", true, false, false⟩,
  ⟨"battery", "Battery", "Battery status", .core, "🔋", true, false, false⟩,
  ⟨"git_branch", "Git Branch", "Current git branch", .vcs, "🌱", true, false, false⟩,
  ⟨"git_status", "Git Status", "Git status symbols", .vcs, "📊", true, false, true⟩,
  ⟨"git_state", "Git State", "Rebase/merge state", .vcs, "🔄", true, false, false⟩,
  ⟨"git_metrics", "Git Metrics", "Added/deleted lines count", .vcs, "📈", false, false, false⟩,
  ⟨"nodejs", "Node.js", "Node.js version", .languages, "⬢", true, true, false⟩,
  ⟨"python", "Python", "Python version", .languages, "🐍", true, true, false⟩,
  ⟨"rust", "Rust", "Rust version", .languages, "🦀", true, false, false⟩,
  ⟨"golang", "Go", "Go version", .languages, "🐹", true, false, false⟩,
  ⟨"java", "Java", "Java version", .languages, "☕", true, false, false⟩,
  ⟨"php", "PHP", "PHP version", .languages, "🐘", true, false, false⟩,
  ⟨"ruby", "Ruby", "Ruby version", .languages, "💎", true, false, false⟩,
  ⟨"package", "Package", "Package version (npm, cargo, etc.)", .tools, "📦", true, false, false⟩,
  ⟨"docker_context", "Docker", "Docker context", .tools, "🐳", true, false, false⟩,
  ⟨"kubernetes", "Kubernetes", "Kubernetes context", .tools, "☸️", true, false, true⟩,
  ⟨"terraform", "Terraform", "Terraform workspace", .tools, "💠", false, false, false⟩,
  ⟨"aws", "AWS", "AWS profile/region", .cloud, "☁️", true, false, true⟩,
  ⟨"gcloud", "Google Cloud", "GCloud project", .cloud, "🇬", false, false, true⟩,
  ⟨"azure", "Azure", "Azure subscription", .cloud, "🇦", false, false, false⟩,
  ⟨"memory_usage", "Memory", "System memory usage", .system, "💾", false, false, false⟩,
  ⟨"env_var", "Env Var", "Environment variable value", .system, "💲", false, false, false⟩]

/-- Top-level keys that are settings of the whole prompt. -/
def globalKeys : List String :=
  ["format", "right_format", "continuation_prompt", "add_newline", "scan_timeout",
    "command_timeout", "palette", "palettes", "custom"]

def find? (id : String) : Option CatalogEntry := entries.find? fun e => e.id = id

def isKnown (id : String) : Bool := (find? id).isSome

/-- The modules of a category, in catalog order. -/
def inCategory (c : Category) : List CatalogEntry := entries.filter fun e => e.category = c

end Catalog

end PromptTheme
