import LocalizedSite.Dictionary.Refresh
import LocalizedSite.Json.Read
import LocalizedSite.Json.Write
import LocalizedSite.Text.Blank

/-!
# The translation service

A scope is translated by one request to a service that answers messages in natural language. The
request tells the service the rules and shows it the scope as JSON; the reply is JSON again, perhaps
inside a code fence. Every way in which the exchange can go wrong is a fault of that scope alone.
-/

namespace LocalizedSite.Translate

open Dictionary

/-- The settings of the translation service. -/
structure Settings where
  /-- The model that translates. -/
  model : Text
  /-- The address of the service. -/
  endpoint : Text
  /-- The environment variable that holds the key for the service. -/
  keyVariable : Text
  /-- The greatest length of a reply. -/
  maxTokens : Int
  /-- What the site is, in words. -/
  siteDescription : Text
  /-- The names that are not to be translated. -/
  protectedTerms : List Text
deriving DecidableEq, Repr

/-- The settings of a site that configures none. -/
def Settings.standard : Settings where
  model := "claude-sonnet-4-20250514".toList
  endpoint := "https://api.anthropic.com/v1/messages".toList
  keyVariable := "ANTHROPIC_API_KEY".toList
  maxTokens := 8192
  siteDescription := "a product review website".toList
  protectedTerms := []

/-- A request to the service. -/
structure Request where
  /-- The address of the service. -/
  endpoint : Text
  /-- The key for the service. -/
  apiKey : Text
  /-- The version of the service's protocol. -/
  version : Text
  /-- The type of the request's content. -/
  contentType : Text
  /-- The model that translates. -/
  model : Text
  /-- The greatest length of a reply. -/
  maxTokens : Int
  /-- The rules for the translation. -/
  system : Text
  /-- The scope to translate. -/
  prompt : Text
deriving DecidableEq, Repr

/-- What comes of a request. -/
inductive Outcome where
  /-- The service could not be reached. -/
  | unreachable (reason : Text)
  /-- The service answered. -/
  | answered (status : Nat) (body : Text)
deriving DecidableEq, Repr

/-- A connection to the service, with a state of its own. -/
abbrev Transport (σ : Type) := σ → Request → Outcome × σ

/-- What a text stands for, or another text if it is empty. -/
def orElse (text default : Text) : Text :=
  if text.isEmpty then default else text

/-- The rules that the service is told for a locale. -/
def systemPrompt (settings : Settings) (locale : Locale) : Text :=
  "You are a professional translator for ".toList ++ settings.siteDescription ++
    ". Translate the JSON values from English to ".toList ++ locale.targetLanguage ++
    ".\n\nCRITICAL RULES:\n1. ONLY translate the VALUES, never the keys\n".toList ++
    "2. Return valid JSON with identical structure\n".toList ++
    "3. Preserve ALL HTML tags (<br>, <span>, <strong>, <a>, etc.) exactly as-is\n".toList ++
    "4. Do NOT translate these names and identifiers: ".toList ++
    orElse (Text.joinWith ", ".toList settings.protectedTerms)
      "brand and product names".toList ++
    "\n5. Do NOT translate: prices, scores, measurements, dates, URLs, CSS classes\n6. ".toList ++
    orElse locale.instructions "Natural, conversational tone.".toList ++
    "\n7. For meta_title and og_title: keep them under 60 characters when possible\n".toList ++
    "8. For meta_description: keep under 160 characters\n".toList ++
    "9. Preserve any \x7b\x7bt.xxx\x7d\x7d template placeholders exactly as-is".toList

/-- The message that shows the service a scope. -/
def userPrompt (scope : Text) (source : Entries Json) (locale : Locale) : Text :=
  "Translate this JSON section (\"".toList ++ scope ++ "\") to ".toList ++
    locale.targetLanguage ++
    ". Return ONLY the translated JSON object, no markdown fences:\n\n".toList ++
    Json.dump (.object source)

/-- The request for a scope. -/
def request (settings : Settings) (apiKey scope : Text) (source : Entries Json)
    (locale : Locale) : Request where
  endpoint := settings.endpoint
  apiKey
  version := "2023-06-01".toList
  contentType := "application/json".toList
  model := settings.model
  maxTokens := settings.maxTokens
  system := systemPrompt settings locale
  prompt := userPrompt scope source locale

/-- The mark of a code fence. -/
def fenceMark : Text := "```".toList

/-- What stands inside the first code fence of a text, if it has one that is closed. -/
def insideFence? (text : Text) : Option Text := do
  let (_, following) ← Text.cut? fenceMark text
  let body := (Text.after? "json".toList following).getD following
  let (inside, _) ← Text.cut? fenceMark body
  return inside

/-- The JSON text of a reply: what stands inside its code fence, or all of it. -/
def replyBody (reply : Text) : Text :=
  let text := Text.trim reply
  match insideFence? text with
  | some inside => Text.trim inside
  | none => text

/-- The texts of an object of strings. -/
def textsOf? (members : Entries Json) : Option (Entries Text) :=
  members.mapM fun (key, value) ↦ value.string?.map (key, ·)

/-- The texts that a reply holds. -/
def parseReply (reply : Text) : Except TranslationFault (Entries Text) :=
  let body := replyBody reply
  match Json.parse body with
  | .error _ => .error (.malformedReply body)
  | .ok (.object members) =>
    match textsOf? members with
    | some texts => .ok texts
    | none => .error .unexpectedReply
  | .ok _ => .error .unexpectedReply

/-- The text of a block of an answer. -/
def blockText? (block : Json) : Option Text :=
  (block.member? "text".toList).bind Json.string?

/-- The first text in an answer. -/
def answerText? (answer : Json) : Option Text :=
  ((answer.member? "content".toList).bind Json.items?).bind fun blocks ↦
    blocks.findSome? blockText?

/-- The least status that tells of a failure. -/
def failureStatus : Nat := 400

/-- The texts that the outcome of a request brings. -/
def receive (scope : Text) (locale : Locale) : Outcome → Except TranslationFault (Entries Text)
  | .unreachable reason => .error (.unreachable scope locale.code reason)
  | .answered status body =>
    if failureStatus ≤ status then .error (.refused scope locale.code status body)
    else
      match Json.parse body with
      | .error _ => .error (.malformedAnswer scope)
      | .ok answer =>
        match answerText? answer with
        | none => .error (.emptyAnswer scope)
        | some text => parseReply text

/-- The translator that sends each scope to the service. -/
def translator {σ : Type} (settings : Settings) (apiKey : Text) (transport : Transport σ) :
    Translator σ := fun state scope source locale ↦
  let (outcome, state) := transport state (request settings apiKey scope source locale)
  ((receive scope locale outcome).map (Entries.mapValues .string), state)

end LocalizedSite.Translate
