import ApiDocs.Text.Basic

namespace ApiDocs.Command

def stylesheetName : Text := "styles.css"

def stylesheetLines : List String := [
  "body \x7b",
  "    font-family: system-ui, sans-serif;",
  "    margin: 0;",
  "    display: flex;",
  "    color: #1a1a1a;",
  "\x7d",
  "",
  ".sidebar \x7b",
  "    position: sticky;",
  "    top: 0;",
  "    height: 100vh;",
  "    width: 18em;",
  "    flex-shrink: 0;",
  "    overflow-y: auto;",
  "    padding: 1em;",
  "    background: #f4f4f4;",
  "    border-right: 1px solid #ddd;",
  "    box-sizing: border-box;",
  "\x7d",
  "",
  ".sidebar ul \x7b",
  "    list-style: none;",
  "    padding-left: 1em;",
  "\x7d",
  "",
  ".content \x7b",
  "    flex-grow: 1;",
  "    max-width: 60em;",
  "    padding: 0 2em 2em;",
  "\x7d",
  "",
  "a \x7b",
  "    color: #0b5cad;",
  "    text-decoration: none;",
  "\x7d",
  "",
  "a:hover \x7b",
  "    text-decoration: underline;",
  "\x7d",
  "",
  "code \x7b",
  "    background: #f4f4f4;",
  "    padding: 0.15em 0.3em;",
  "    border-radius: 3px;",
  "\x7d",
  "",
  "pre \x7b",
  "    background: #f4f4f4;",
  "    padding: 1em;",
  "    border-radius: 5px;",
  "    overflow-x: auto;",
  "\x7d",
  "",
  "table \x7b",
  "    border-collapse: collapse;",
  "    width: 100%;",
  "\x7d",
  "",
  "th, td \x7b",
  "    border: 1px solid #ddd;",
  "    padding: 0.4em 0.6em;",
  "    text-align: left;",
  "    vertical-align: top;",
  "\x7d",
  "",
  "hr \x7b",
  "    border: none;",
  "    border-top: 1px solid #ddd;",
  "    margin: 2em 0;",
  "\x7d"]

def stylesheet : Text := stylesheetLines.flatMap fun l => l.toList ++ ['\n']

end ApiDocs.Command
