import LocalizedSite.Dictionary.Refresh
import LocalizedSite.Files.Tree
import LocalizedSite.Json.Read
import LocalizedSite.Json.Write

/-!
# The dictionary store

Every locale has one dictionary file in a directory. The store keeps the dictionaries that it has
read or written; a file that is absent counts as an empty dictionary. A file that is there but is no
JSON object is a fault.
-/

namespace LocalizedSite

/-- Why a dictionary cannot be had. -/
inductive StoreFault where
  | notJson (path : Text) (fault : Json.Fault)
  | notObject (path : Text)
  | file (error : FileError)
  /-- The target's value for a scope cannot be compared with the source. -/
  | incomparable
deriving DecidableEq, Repr

/-- The wording of a fault of the dictionary file itself. -/
def StoreFault.message? : StoreFault → Option Text
  | .notJson path fault =>
    some ("Dictionary '".toList ++ path ++ "' is not valid JSON: ".toList ++ fault.message)
  | .notObject path =>
    some ("Dictionary '".toList ++ path ++ "' must contain a JSON object.".toList)
  | _ => none

/-- A store of dictionaries. -/
structure Store where
  /-- The directory of the dictionary files. -/
  directory : FilePath
  /-- The code of the source locale. -/
  sourceCode : Text
  /-- The dictionaries read or written so far, by locale. -/
  cache : Entries Dictionary

namespace Store

/-- A store that has not read anything. -/
def fresh (directory : FilePath) (sourceCode : Text) : Store :=
  ⟨directory, sourceCode, []⟩

/-- The file of a locale's dictionary. -/
def path (store : Store) (code : Text) : FilePath :=
  store.directory.joinText (code ++ ".json".toList)

/-- Whether a locale has a dictionary file. -/
def hasFile (store : Store) (tree : FileTree) (code : Text) : Bool :=
  tree.isFile (store.path code)

/-- The dictionary that a file holds. -/
def read (store : Store) (tree : FileTree) (code : Text) : Except StoreFault Dictionary :=
  let path := store.path code
  if tree.isFile path then
    match tree.readText path with
    | .error error => .error (.file error)
    | .ok text =>
      match Json.parse text with
      | .error fault => .error (.notJson path.text fault)
      | .ok (.object members) => .ok members
      | .ok _ => .error (.notObject path.text)
  else .ok []

/-- Keep a dictionary. -/
def keep (store : Store) (code : Text) (dictionary : Dictionary) : Store :=
  { store with cache := Entries.put store.cache code dictionary }

/-- The dictionary of a locale, read from its file unless the store has it. -/
def load (store : Store) (tree : FileTree) (code : Text) :
    Except StoreFault (Dictionary × Store) :=
  match Entries.get? store.cache code with
  | some dictionary => .ok (dictionary, store)
  | none => (store.read tree code).map fun dictionary ↦ (dictionary, store.keep code dictionary)

/-- The dictionary of the source locale. -/
def source (store : Store) (tree : FileTree) : Except StoreFault (Dictionary × Store) :=
  store.load tree store.sourceCode

/-- The text of a dictionary file. -/
def fileText (value : Json) : Text :=
  Json.dump value ++ ['\n']

/-- Write a dictionary file. -/
def writeFile (store : Store) (tree : FileTree) (code : Text) (dictionary : Dictionary) :
    Except FileError FileTree :=
  tree.writeMaking (store.path code) (.text (fileText (.object dictionary)))

/-- Write a dictionary and keep it. -/
def save (store : Store) (tree : FileTree) (code : Text) (dictionary : Dictionary) :
    Except FileError (FileTree × Store) :=
  (store.writeFile tree code dictionary).map fun tree ↦ (tree, store.keep code dictionary)

/-- The text of an entry. -/
def text? (store : Store) (tree : FileTree) (code scope key : Text) :
    Except StoreFault (Option Text × Store) :=
  (store.load tree code).map fun (dictionary, store) ↦ (dictionary.text? scope key, store)

/-- Forget everything and read the dictionaries of locales that have a file; one that is no JSON
object is left out. The store comes back also when a file cannot be read at all. -/
def snapshotFrom (tree : FileTree) :
    Store → Entries Dictionary → List Text → Except StoreFault (Entries Dictionary) × Store
  | store, found, [] => (.ok found, store)
  | store, found, code :: codes =>
    if store.hasFile tree code then
      match store.load tree code with
      | .ok (dictionary, store) => snapshotFrom tree store (Entries.put found code dictionary) codes
      | .error fault =>
        if fault.message?.isSome then snapshotFrom tree store found codes else (.error fault, store)
    else snapshotFrom tree store found codes

/-- The dictionaries of locales as their files have them now. -/
def snapshot (store : Store) (tree : FileTree) (codes : List Text) :
    Except StoreFault (Entries Dictionary) × Store :=
  snapshotFrom tree { store with cache := [] } [] codes

/-- Write a list of dictionaries for a locale, one after another. -/
def writeAll (store : Store) (code : Text) :
    FileTree → List Dictionary → Except (FileError × FileTree) FileTree
  | tree, [] => .ok tree
  | tree, dictionary :: others =>
    match store.writeFile tree code dictionary with
    | .ok tree => writeAll store code tree others
    | .error error => .error (error, tree)

variable {σ : Type}

/-- What a refresh leaves behind: its result, the files and the store. -/
structure Refreshed (σ : Type) where
  /-- The report with the translator's state, or why the refresh stopped. -/
  result : Except StoreFault Dictionary.RefreshReport
  /-- The state of the translator. -/
  translator : σ
  /-- The files. -/
  tree : FileTree
  /-- The store. -/
  store : Store

/-- Refresh a locale's dictionary from the source locale's and write every dictionary that the
refresh saves. -/
def refresh (store : Store) (tree : FileTree) (translate : Dictionary.Translator σ)
    (translator : σ) (locale : Locale) (sections : List Text) : Refreshed σ :=
  match store.source tree with
  | .error fault => ⟨.error fault, translator, tree, store⟩
  | .ok (source, store) =>
    match store.load tree locale.code with
    | .error fault => ⟨.error fault, translator, tree, store⟩
    | .ok (target, store) =>
      let source := if locale.code = store.sourceCode then none else some source
      let (state, stopped) :=
        match Dictionary.refresh translate translator locale source sections target with
        | .ok state => (state, none)
        | .error state => (state, some StoreFault.incomparable)
      let kept := store.keep locale.code state.target
      match store.writeAll locale.code tree state.saved.reverse with
      | .error (error, tree) => ⟨.error (.file error), state.translator, tree, kept⟩
      | .ok tree =>
        ⟨(match stopped with
          | some fault => .error fault
          | none => .ok state.report), state.translator, tree, kept⟩

end Store

end LocalizedSite
