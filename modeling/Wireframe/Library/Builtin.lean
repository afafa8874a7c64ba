import Wireframe.Library
import Wireframe.Text.Lines

/-!
# The built-in library

The patterns and example pages that are there without any library file.
-/

namespace Wireframe.Library

/-- Patterns of the category Metadata. -/
def metadataPatterns : List Pattern :=
  [{ id := "metadata-block", label := "Metadata block",
      description := "Page title, address, language and purpose",
      syntaxText := Text.wholeLines
        ["Title: Page title",
          "URL: /page",
          "Page language: en",
          "Page Purpose: What the user comes here to do",
          "Referrer: Where the user arrives from",
          "Regions: Header, Main, Footer",
          "Interactive Elements: 0"] },
    { id := "title", label := "Title",
      description := "Page title shown in the browser tab",
      syntaxText := "Title: Page title\n" }]

/-- Patterns of the category Structure. -/
def structurePatterns : List Pattern :=
  [{ id := "heading-1", label := "Heading 1",
      description := "Main page heading; use once per page",
      syntaxText := "# Main heading\n" },
    { id := "heading-2", label := "Heading 2",
      description := "Section heading",
      syntaxText := "## Section heading\n" },
    { id := "heading-3", label := "Heading 3",
      description := "Sub-section heading",
      syntaxText := "### Sub-section heading\n" },
    { id := "landmark-header", label := "Header landmark",
      description := "Banner region with site identity",
      syntaxText := "|| Header\n" },
    { id := "landmark-navigation", label := "Navigation landmark",
      description := "Primary navigation region",
      syntaxText := "|| Navigation\n" },
    { id := "landmark-main", label := "Main landmark",
      description := "Main content region",
      syntaxText := "|| Main\n" },
    { id := "landmark-footer", label := "Footer landmark",
      description := "Content info region",
      syntaxText := "|| Footer\n" },
    { id := "skip-link", label := "Skip link",
      description := "Lets keyboard users bypass repeated navigation",
      syntaxText := "[Skip to main content](#main)\n" }]

/-- Patterns of the category Layout. -/
def layoutPatterns : List Pattern :=
  [{ id := "region-tags", label := "Region start/end",
      description := "Mark where a region starts and ends",
      syntaxText := Text.wholeLines
        ["[Header Start]",
          "",
          "[Header End]"] },
    { id := "two-columns", label := "2 columns",
      description := "Split the following content into two columns",
      syntaxText := "[2 Columns]\n" },
    { id := "sidebar", label := "Sidebar",
      description := "Complementary content beside the main flow",
      syntaxText := "[Sidebar]\n" },
    { id := "card", label := "Card/Block",
      description := "A grouped block of related content",
      syntaxText := "[Card/Block]\n" },
    { id := "divider", label := "Divider",
      description := "Horizontal rule between sections",
      syntaxText := "---\n" }]

/-- Patterns of the category Interaction. -/
def interactionPatterns : List Pattern :=
  [{ id := "link", label := "Link",
      description := "Link to a defined page",
      syntaxText := "[Link text](/page)" },
    { id := "undefined-link", label := "Undefined link",
      description := "Link whose destination is not designed yet",
      syntaxText := "[Link text]" },
    { id := "button", label := "Button",
      description := "Describe the action the button performs",
      syntaxText := "[[Button action]]" },
    { id := "image", label := "Image",
      description := "Describe what the image shows",
      syntaxText := "<Image description>" },
    { id := "form-field", label := "Form field",
      description := "Labelled text input",
      syntaxText := "Label: [____]\n" },
    { id := "bullet", label := "Bullet",
      description := "List item",
      syntaxText := "* List item\n" }]

/-- The example page of a sign-in form. -/
def loginPage : String := Text.wholeLines
  ["Title: Sign in",
    "URL: /login",
    "Page language: en",
    "Page Purpose: Let returning customers sign in to their account",
    "Referrer: Home page",
    "Regions: Header, Main, Footer",
    "Interactive Elements: 5",
    "",
    "[Skip to main content](#main)",
    "",
    "|| Header",
    "<Company logo>",
    "[Home](/)",
    "",
    "|| Main",
    "# Sign in",
    "Sign in to see your orders and saved items.",
    "Email address: [____]",
    "Password: [____]",
    "[[Sign in]]",
    "[Forgot your password?](/reset)",
    "",
    "|| Footer",
    "[Accessibility statement](/accessibility)"]

/-- The example page of a shop. -/
def homePage : String := Text.wholeLines
  ["Title: Home",
    "URL: /",
    "Page language: en",
    "Page Purpose: Introduce the shop and route visitors to products",
    "Regions: Header, Navigation, Main, Footer",
    "Interactive Elements: 7",
    "",
    "[Skip to main content](#main)",
    "",
    "|| Header",
    "<Company logo>",
    "",
    "|| Navigation",
    "[Products](/products)",
    "[Offers](/offers)",
    "[Contact us]",
    "",
    "|| Main",
    "# Everything for your garden",
    "<Sunlit garden with raised vegetable beds>",
    "Tools, seeds and advice delivered to your door.",
    "[[Browse products]]",
    "---",
    "## Why shop with us",
    "* Free delivery over 30 pounds",
    "* Advice from trained gardeners",
    "* Easy returns",
    "",
    "|| Footer",
    "[Accessibility statement](/accessibility)",
    "[Privacy](/privacy)"]

/-- The built-in library. -/
def builtin : Library where
  categories :=
    [⟨"Metadata", metadataPatterns⟩,
      ⟨"Structure", structurePatterns⟩,
      ⟨"Layout", layoutPatterns⟩,
      ⟨"Interaction", interactionPatterns⟩]
  examples := [⟨"Login page", "login.txt"⟩, ⟨"Home page", "home.txt"⟩]

/-- The text of an example page that is built in. -/
def builtinPage? (file : String) : Option String :=
  [("login.txt", loginPage), ("home.txt", homePage)].lookup file

end Wireframe.Library
