import LintGateway.ConfigError
import LintGateway.Rule.Options

/-!
# The rule catalog

The vocabulary that gives every key of the host its identifier of the linter. A key stands in it
once and so does an identifier, so the vocabulary can be read in both directions.
-/

set_option autoImplicit false

namespace LintGateway.Rule

/-- A known rule: the host's key, the linter's identifier and the options it has unless others are
given. -/
structure CatalogEntry where
  key : Key
  externalId : String
  defaults : Options := []

/-- Known rules, no two of the same key or the same identifier. -/
structure Catalog where
  entries : List CatalogEntry
  keys_nodup : (entries.map CatalogEntry.key).Nodup
  externalIds_nodup : (entries.map CatalogEntry.externalId).Nodup

namespace Catalog

/-- The catalog without rules. -/
def empty : Catalog := ⟨[], by simp, by simp⟩

/-- Adds an entry at the end. A key that is taken is reported before an identifier that is. -/
def add (c : Catalog) (e : CatalogEntry) : Except ConfigError Catalog :=
  if hk : e.key ∈ c.entries.map CatalogEntry.key then .error (.duplicateKey e.key)
  else if hi : e.externalId ∈ c.entries.map CatalogEntry.externalId then
    .error (.duplicateExternalId e.externalId)
  else
    .ok ⟨c.entries ++ [e],
      by
        simpa [List.nodup_append] using
          ⟨c.keys_nodup, fun a ha he => hk (by simpa using ⟨a, ha, he⟩)⟩,
      by
        simpa [List.nodup_append] using
          ⟨c.externalIds_nodup, fun a ha he => hi (by simpa using ⟨a, ha, he⟩)⟩⟩

/-- The catalog of a list of entries. -/
def ofEntries (entries : List CatalogEntry) : Except ConfigError Catalog :=
  entries.foldlM add empty

/-- The entry of a key. -/
def get? (c : Catalog) (key : Key) : Option CatalogEntry := c.entries.find? fun e => e.key = key

/-- The rules for style sheets that the host knows: name in the repository `css`, identifier of the
linter. -/
def styleSheetRules : List (String × String) :=
  [("S4647", "color-no-invalid-hex"),
    ("S4648", "font-family-no-duplicate-names"),
    ("S4649", "font-family-no-missing-generic-family-keyword"),
    ("S4650", "function-calc-no-unspaced-operator"),
    ("S4651", "function-linear-gradient-no-nonstandard-direction"),
    ("S4652", "string-no-newline"),
    ("S4653", "unit-no-unknown"),
    ("S4654", "property-no-unknown"),
    ("S4655", "keyframe-declaration-no-important"),
    ("S4656", "declaration-block-no-duplicate-properties"),
    ("S4657", "declaration-block-no-shorthand-property-overrides"),
    ("S4658", "block-no-empty"),
    ("S4659", "selector-pseudo-class-no-unknown"),
    ("S4660", "selector-pseudo-element-no-unknown"),
    ("S4661", "media-feature-name-no-unknown"),
    ("S4662", "at-rule-no-unknown"),
    ("S4663", "comment-no-empty"),
    ("S4664", "no-descending-specificity"),
    ("S4666", "no-duplicate-selectors"),
    ("S4667", "no-empty-source"),
    ("S4668", "no-extra-semicolons"),
    ("S4670", "selector-type-no-unknown")]

/-- The catalog of the rules for style sheets. -/
def styleSheets : Catalog where
  entries := styleSheetRules.map fun r => { key := ⟨"css", r.1⟩, externalId := r.2 }
  keys_nodup := by decide
  externalIds_nodup := by decide

end Catalog

end LintGateway.Rule
