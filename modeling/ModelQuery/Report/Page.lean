import ModelQuery.Document.Writing
import ModelQuery.Report.Style
import ModelQuery.Selection.Basic

/-! A page of a selection as text. The last line tells how to go on, if there is more. -/

namespace ModelQuery.Report

/-- Tells which part of the selection a page shows. -/
def pageSummary (page : Page) : String :=
  if page.ids.isEmpty then
    toString page.total ++ " objects (offset " ++ toString page.offset ++ " is past the end)"
  else
    toString page.total ++ " objects (showing " ++ toString (page.offset + 1) ++ "-" ++
      toString page.next ++ ")"

/-- The command that shows the next page. -/
def nextLine (page : Page) : String :=
  "Next page: bimq page " ++ page.token ++ " --offset " ++ toString page.next ++ "\n"

def pageText (colors : Bool) (page : Page) : String :=
  if page.total = 0 then "No matching objects.\n"
  else
    styled colors [.dimmed] (pageSummary page) ++ "\n" ++
      String.join (page.ids.map (· ++ "\n")) ++ "\n" ++
      styled colors [.dimmed] ("Selection: " ++ page.token) ++ "\n" ++
      (if page.hasMore then nextLine page else "")

def pageDocument (page : Page) : Document :=
  .object [("token", .text page.token), ("total", .integer page.total),
    ("offset", .integer page.offset), ("count", .integer page.ids.length),
    ("has_more", .boolean page.hasMore), ("ids", .array (page.ids.map Document.text))]

end ModelQuery.Report
