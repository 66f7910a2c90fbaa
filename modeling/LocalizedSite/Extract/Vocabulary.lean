import LocalizedSite.Entries

/-!
# The vocabulary of extraction

The closed sets of labels and classes that the extraction of navigation, buttons, badges, footers
and regions knows. Labels come with the key under which they are shared by all pages.
-/

namespace LocalizedSite.Extract

/-- The labels and classes that extraction knows. -/
structure Vocabulary where
  /-- Labels of navigation links. -/
  navLabels : Entries Text
  /-- Labels of buttons that many pages have. -/
  sharedButtons : Entries Text
  /-- Classes of spans that hold text. -/
  spanClasses : List Text
  /-- Classes of divisions that hold text. -/
  divClasses : List Text
  /-- Classes of links that hold text. -/
  linkClasses : List Text
  /-- Headings of footer columns. -/
  footerHeadings : Entries Text
  /-- Labels of footer links. -/
  footerLinks : Entries Text
  /-- Names of regions. -/
  regionNames : Entries Text
deriving DecidableEq, Repr

/-- Entries of literal texts. -/
def literalEntries (pairs : List (String × String)) : Entries Text :=
  pairs.map fun (label, key) ↦ (label.toList, key.toList)

/-- The vocabulary of a site that configures none. -/
def Vocabulary.standard : Vocabulary where
  navLabels := literalEntries
    [("Reviews", "nav_reviews"), ("Compare", "nav_compare"), ("Discounts", "nav_discounts"),
     ("About", "nav_about"), ("Comparison", "nav_comparison"), ("All Reviews", "nav_all_reviews")]
  sharedButtons := literalEntries
    [("Review", "btn_review"), ("Buy", "btn_buy"), ("Buy Now", "btn_buy_now")]
  spanClasses :=
    ["section-tag", "review-badge", "score-label", "stat-label", "stat-key", "savings-text",
     "savings-amount", "code-label", "partner-desc", "partner-discount", "spec-label",
     "finding-value", "finding-basis", "tldr-highlight-label", "review-updated",
     "discount-badge-new", "discount-badge", "discount-badge-none",
     "region-popup-subtitle"].map String.toList
  divClasses := ["stat-number", "stat-label"].map String.toList
  linkClasses := ["discount-details-link", "discount-cta-btn"].map String.toList
  footerHeadings := literalEntries
    [("Discount Codes", "footer_col_discounts"), ("Resources", "footer_col_resources"),
     ("Compare", "footer_col_compare"), ("Comparisons", "footer_col_comparisons")]
  footerLinks := literalEntries
    [("All Discount Codes", "fl_all_discounts"), ("Exclusive Codes", "fl_exclusive_codes"),
     ("Partner Brands", "fl_partner_brands"), ("About Us", "fl_about"),
     ("All Comparisons", "fl_all_comparisons"), ("Methodology", "fl_methodology"),
     ("Affiliate Disclosure", "fl_disclosure")]
  regionNames := literalEntries
    [("Europe", "region_europe"), ("United States", "region_us")]

end LocalizedSite.Extract
