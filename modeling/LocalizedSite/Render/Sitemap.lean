import LocalizedSite.Render.Registry

/-!
# The sitemap

The sitemap has an entry for every page in every built locale, the pages outermost. Each entry links
to all versions of its page.
-/

namespace LocalizedSite.Render

/-- An entry of the sitemap. -/
structure SitemapEntry where
  /-- The address of the page. -/
  location : Text
  /-- The date of the last change. -/
  lastChange : Text
  /-- How often the page changes. -/
  frequency : Text
  /-- The weight of the page among the pages of the site. -/
  priority : Text
  /-- The versions of the page. -/
  alternates : List Alternate
deriving DecidableEq, Repr

/-- The weight of a page: low if it is not to be indexed, highest for the home page, and higher for
a directory index than for any other page. -/
def priority (page : Page) (hidden : Bool) : Text :=
  if hidden then "0.3".toList
  else if page.urlPath.isEmpty then "1.0".toList
  else if page.isDirectoryIndex then "0.8".toList
  else "0.6".toList

/-- How often a page changes. -/
def changeFrequency (page : Page) : Text :=
  if page.urlPath.isEmpty || page.isDirectoryIndex then "weekly".toList else "monthly".toList

/-- The entry of a page in a locale. -/
def sitemapEntry (registry : Registry) (hiddenPages : List Text) (today : Text) (page : Page)
    (locale : Locale) : SitemapEntry :=
  ⟨registry.pageUrl page locale, today, changeFrequency page,
    priority page (hiddenPages.contains page.key), registry.alternates page⟩

/-- The entries of a sitemap. -/
def sitemapEntries (registry : Registry) (hiddenPages : List Text) (today : Text)
    (pages : List Page) (locales : List Locale) : List SitemapEntry :=
  pages.flatMap fun page ↦ locales.map (sitemapEntry registry hiddenPages today page)

/-- A line of an entry that holds one value. -/
def sitemapValue (name value : Text) : Text :=
  "    <".toList ++ name ++ '>' :: escapeMarkup value ++ "</".toList ++ name ++ ">\n".toList

/-- A line of an entry that links to a version of the page. -/
def sitemapLink (alternate : Alternate) : Text :=
  "      <xhtml:link rel=\"alternate\" hreflang=\"".toList ++ escapeMarkup alternate.hreflang ++
    "\" href=\"".toList ++ escapeMarkup alternate.href ++ "\"/>\n".toList

/-- The lines of an entry. -/
def sitemapEntryText (entry : SitemapEntry) : Text :=
  "  <url>\n".toList ++ sitemapValue "loc".toList entry.location ++
    sitemapValue "lastmod".toList entry.lastChange ++
    sitemapValue "changefreq".toList entry.frequency ++
    sitemapValue "priority".toList entry.priority ++
    entry.alternates.flatMap sitemapLink ++ "  </url>\n".toList

/-- The text of a sitemap. -/
def sitemapText (entries : List SitemapEntry) : Text :=
  "<?xml version=\"1.0\" encoding=\"UTF-8\"?>\n".toList ++
    "<urlset xmlns=\"http://www.sitemaps.org/schemas/sitemap/0.9\"\n".toList ++
    "        xmlns:xhtml=\"http://www.w3.org/1999/xhtml\">\n".toList ++
    entries.flatMap sitemapEntryText ++ "</urlset>\n".toList

end LocalizedSite.Render
