import Wireframe.Text.Lines

/-!
# Prompts

A page can be handed to a language model with instructions in front of it. There is one text of
instructions for each destination; a blank line separates it from the page, which stays as it is.
-/

namespace Wireframe

/-- What a prompt asks for. -/
inductive PromptTarget
  /-- Any language model, with a legend of the notation. -/
  | llm
  /-- A design file. -/
  | penpot
  deriving DecidableEq, Repr

namespace PromptTarget

/-- All destinations. -/
def all : List PromptTarget := [llm, penpot]

/-- The name of a destination. -/
def name : PromptTarget → String
  | llm => "llm"
  | penpot => "penpot"

/-- The destination of a given name. -/
def ofName? (name : String) : Option PromptTarget := all.find? (·.name == name)

/-- The legend of the notation. -/
def legend : String := Text.wholeLines
  ["Introduction",
    "It is important to be able to allow content designers and service designers to quickly " ++
        "iterate and test design ideas with a broad range of users. In doing user testing and " ++
        "research, it is important to be able to engage a wide range of users, including those " ++
        "with a wide range of visual disabilities. Text is simply the most inclusive way to " ++
        "share ideas to the broadest possible audience.",
    "Accessibility is often encouraged to Shift-Left, and make sure that people with " ++
        "disabilities are included in the design process. There are no visual wireframe tools " ++
        "available today which are built to support the inclusion of screen reader users. If " ++
        "screen reader users cannot participate in the design process, then they cannot be " ++
        "engaged in co-designing to meet their needs.",
    "This allows for a content-first approach to design. Because people are used to " ++
        "collaborating in documents, it also allows more people to be involved.",
    "Legend / Patterns",
    "GoogleDoc Heading 1 - Used here just to differentiate context from example",
    "Default to Markdown to show structure",
    "[](https://www.google.com/search?q=) Links - Undefined links identified with [] - only " ++
        "complete [example](link to /) if  page is defined.",
    "[[]] Buttons - describe action",
    "<> Images",
    "# Headings",
    "",
    "",
    "|| Landmarks",
    "* Bullets",
    "[__] Forms and labels",
    ""]

/-- The request for a design file. -/
def designRequest : String := Text.wholeLines
  ["You are an expert wireframe designer. Your team has generated a content-first, " ++
        "text-based wireframe that outlines the key elements of a page that they have been " ++
        "designing. I need you to take this and convert it into a visual .penpot file that can " ++
        "be seen visually to help us prepare for production. ",
    "",
    "Provide all of the assets that are needed for a complete and validated Penpot file. " ++
        "Ensure that it has all of the elements to make it visually representative and to carry " ++
        "forward the semantics expressed in the text wireframe. ",
    "",
    "**Important accessibility requirements:**",
    "- It is critical that accessibility is preserved in the visual design",
    "- The wireframe you create in Penpot must meet WCAG 2.2 AA standards",
    "- Maintain semantic structure and landmark regions from the original wireframe",
    "- Ensure proper heading hierarchy and contrast ratios",
    "",
    "**Deliverables:**",
    "- A complete .penpot file with all boards, components, and layers properly organized",
    "- Clear naming for all objects and groups",
    "- Consistent typography, spacing, and color system",
    "- Reusable components for buttons, inputs, and cards",
    "- All assets packaged and ready for import into Penpot",
    "",
    "If you have any concerns or questions about accessibility or design choices, please let " ++
        "me know.",
    "",
    "**After you've created the file:**",
    "Please remind me how to import it into https://design.penpot.app and what to do if I " ++
        "don't already have an account.",
    "",
    "---",
    "",
    "## Wireframe to Convert:"]

/-- The instructions for a destination. -/
def instructions : PromptTarget → String
  | llm => legend
  | penpot => designRequest

/-- The prompt for a page. -/
def wrap (target : PromptTarget) (page : String) : String :=
  target.instructions ++ "\n\n" ++ page

end PromptTarget

end Wireframe
