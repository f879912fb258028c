import StepScript.Action.Builtin

/-!
# Rehearsal browsers

A backend without a browser: its pages show the elements of a table, and it keeps a log of what was
done. Options of a browser make it fail at chosen places.
-/

namespace StepScript.Rehearsal

structure Element where
  text : String
  value : String
  /-- How long a page takes to show it. -/
  delayMillis : Nat := 0

structure World where
  elements : Dictionary Element := []
  browsers : Nat := 0
  pages : Nat := 0
  events : Array String := #[]

/-- A browser: its number and the options that it was launched with. -/
structure Browser where
  number : Nat
  options : Option Json

structure Page where
  number : Nat

def World.log (world : World) (event : String) : World :=
  { world with events := world.events.push event }

def logged (event : String) : Activity World Unit := Activity.update (·.log event)

/-- An event with options, if there are any. -/
def withOptions (event : String) (options : Option Json) : String :=
  match options with
  | some options => event ++ " " ++ options.render
  | none => event

/-- The text of a member of the options, if it is one. -/
def optionText? (options : Option Json) (key : String) : Option String :=
  match options with
  | some (.object members) =>
    match Dictionary.get? members key with
    | some (.string text) => some text
    | _ => none
  | _ => none

/-- Fails if the options ask for it. -/
def failing {α : Type} (options : Option Json) (key : String)
    (activity : Activity World (Except ActionError α)) : Activity World (Except ActionError α) :=
  match optionText? options key with
  | some message => pure (.error (.backend message))
  | none => activity

def launch (options : Option Json) : Activity World (Except ActionError Browser) :=
  failing options "failLaunch" do
    Activity.update fun world => { world with browsers := world.browsers + 1 }
    let number := (← Activity.getState).browsers
    logged (withOptions ("launch " ++ natText number) options)
    return .ok ⟨number, options⟩

def newPage (browser : Browser) : Activity World (Except ActionError Page) :=
  failing browser.options "failPage" do
    Activity.update fun world => { world with pages := world.pages + 1 }
    let number := (← Activity.getState).pages
    logged ("new_page " ++ natText number ++ " on " ++ natText browser.number)
    return .ok ⟨number⟩

def close (browser : Browser) : Activity World (Except ActionError Unit) :=
  failing browser.options "failClose" do
    logged ("close " ++ natText browser.number)
    return .ok ()

/-- Navigates a page. Addresses that begin with `fail:` cannot be reached. -/
def goto (page : Page) (url : String) (options : Option Json) :
    Activity World (Except ActionError Unit) := do
  if url.startsWith "fail:" then return .error (.backend ("cannot navigate to " ++ url))
  logged (withOptions ("goto " ++ natText page.number ++ " " ++ url) options)
  return .ok ()

def withElement {α : Type} (selector : String) (use : Element → Activity World α) :
    Activity World (Except ActionError α) := do
  match (← Activity.getState).elements.get? selector with
  | none => return .error (.backend ("element not found: " ++ selector))
  | some element =>
    let result ← use element
    return .ok result

def putElement (selector : String) (element : Element) : Activity World Unit :=
  Activity.update fun world =>
    { world with elements := world.elements.insert selector element }

def elementEvent (verb : String) (page : Page) (words : List String) : String :=
  " ".intercalate (verb :: natText page.number :: words)

def backend : Backend where
  World := World
  Browser := Browser
  Page := Page
  launch := launch
  newPage := newPage
  close := close
  goto := goto
  typeText page selector text := withElement selector fun element => do
    putElement selector { element with value := element.value ++ text }
    logged (elementEvent "type" page [selector, text])
  setValue page selector text := withElement selector fun element => do
    putElement selector { element with value := text }
    logged (elementEvent "set" page [selector, text])
  readText _ selector := withElement selector fun element => return element.text
  readValue _ selector := withElement selector fun element => return element.value
  waitForSelector page selector := withElement selector fun element => do
    Activity.sleep element.delayMillis
    logged (elementEvent "wait" page [selector])
  waitForXPath page xpath := do
    logged (elementEvent "xpath" page [xpath])
    return .ok ()

end StepScript.Rehearsal
