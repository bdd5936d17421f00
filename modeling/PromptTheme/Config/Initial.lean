/-
The configuration that a new theme starts from.
-/
import PromptTheme.Config.Basic

namespace PromptTheme

namespace Value

/-- A table written down entry by entry. -/
def ofStrings (pairs : List (String × String)) : Value :=
  .table (pairs.map fun (k, v) => (k, .string v))

end Value

/-- The configuration that a new theme starts from. -/
def Config.initial : Config := .ofEntries [
  ("add_newline", .bool true),
  ("format", .string ("$username$hostname$directory$git_branch$git_state$git_status" ++
    "$cmd_duration$line_break$character")),
  ("character", .ofStrings [
    ("success_symbol", "[➜](bold green)"),
    ("error_symbol", "[➜](bold red)")]),
  ("directory", .table [
    ("truncation_length", .count 3),
    ("truncate_to_repo", .bool false)]),
  ("git_branch", .table [
    ("symbol", .string "🌱 "),
    ("format", .string "[$symbol$branch]($style) "),
    ("truncation_length", .count 24)]),
  ("git_status", .ofStrings [
    ("format", "([$all_status$ahead_behind]($style) )"),
    ("conflicted", "🏳"),
    ("ahead", "🏎💨"),
    ("behind", "😰"),
    ("diverged", "😵"),
    ("up_to_date", "✓"),
    ("untracked", "🤷"),
    ("stashed", "📦"),
    ("modified", "📝"),
    ("staged", "[++()](green)"),
    ("renamed", "👅"),
    ("deleted", "🗑")]),
  ("nodejs", .ofStrings [("format", "via [⬢ $version](bold green) ")])]

end PromptTheme
