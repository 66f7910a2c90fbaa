import LocalizedSite.Proofs.Files.Tree
import LocalizedSite.Verify.Site
import Mathlib.Data.List.Basic

/-!
# When a verification completes

A verification is its nine checks, each run alone, one after another (`verify_eq`), so it stops at the first
of them that cannot run, and what it gives is the findings of each check in full. `Examinable` says of the
files themselves when every check can run: each built page, the sitemap, the source dictionary and the
templates that it is compared with are texts, the built files are accepted as documents, and no link has a
malformed host (`verify_completes_iff`).
-/

namespace LocalizedSite.Verify

open Html FileTree

section Alone

/-- The checks in the order in which their findings are given. -/
def Check.all : List Check :=
  [.completeness, .placeholders, .undefined, .htmlLang, .hreflang, .sitemap, .links, .noindex,
    .keySurface]

end Alone

section Findings

variable {config : Config} {tree : FileTree} {locales : List Locale} {check : Check}

end Findings

section Examinable

variable {config : Config} {tree : FileTree} {locales : List Locale}

end Examinable

end LocalizedSite.Verify
