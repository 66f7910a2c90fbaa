import LocalizedSite.Text.Basic

/-!
# Pages

A logical page, known by one key in every locale. Its address is its output path with the parts
that a web server adds by itself left out.
-/

namespace LocalizedSite

/-- A page of the site. -/
structure Page where
  /-- The key, which is also the scope of the page's dictionary entries. -/
  key : Text
  /-- The template file below the templates directory. -/
  template : Text
  /-- The output file below a locale's path. -/
  output : Text
  /-- Where the page redirects to, if it is only a redirect. -/
  redirectTo : Option Text
deriving DecidableEq, Repr

namespace Page

/-- The file name of a directory index. -/
def indexName : Text := "index.html".toList

/-- The ending of a page file. -/
def pageEnding : Text := ".html".toList

/-- Whether a page only redirects. -/
def isRedirect (page : Page) : Bool :=
  page.redirectTo.isSome

/-- Whether a page is served as a directory index. -/
def isDirectoryIndex (page : Page) : Bool :=
  Text.endsWith page.output indexName

/-- A text without its last `count` characters. -/
def dropLast (count : Nat) (text : Text) : Text :=
  text.take (text.length - count)

/-- The path of a page's address: the output without the name of a directory index or the ending
of a page file. -/
def urlPath (page : Page) : Text :=
  if page.isDirectoryIndex then dropLast indexName.length page.output
  else if Text.endsWith page.output pageEnding then dropLast pageEnding.length page.output
  else page.output

end Page

end LocalizedSite
