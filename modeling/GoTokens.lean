import GoTokens.Files.Tree
import GoTokens.Main
import GoTokens.Proofs.Lexeme.Number
import GoTokens.Proofs.Place
import GoTokens.Proofs.Cursor
import GoTokens.Proofs.Lexeme.Comment
import GoTokens.Proofs.Lexeme.Settled
import GoTokens.Proofs.Punct
import GoTokens.Proofs.Lexeme.Meaning
import GoTokens.Proofs.Scanner.Run
import GoTokens.Proofs.Scanner.Requests
import GoTokens.Proofs.Scanner.Reading
import GoTokens.Proofs.Scanner.Tiling
import GoTokens.Proofs.CharClass
import GoTokens.Proofs.Scanner.Place
import GoTokens.Proofs.Scanner.Failure
import GoTokens.Proofs.Checked.Head
import GoTokens.Proofs.Checked.Lexeme
import GoTokens.Proofs.Checked.Scanner
import GoTokens.Proofs.Command.Session
import GoTokens.Proofs.Command.Tokens
import GoTokens.Proofs.Files.Path
import GoTokens.Proofs.Files.Tree
import GoTokens.Proofs.Command.Configure
import GoTokens.Proofs.Scanner.Cut
import GoTokens.Proofs.Scanner.Join
import GoTokens.Proofs.Scanner.Front
import GoTokens.Proofs.Scanner.Comments
import GoTokens.Proofs.Scanner.Rescan
import GoTokens.Proofs.Lexeme.Closing
import GoTokens.Proofs.Scanner.Outcome
import GoTokens.Proofs.Scanner.Literals
import GoTokens.Proofs.Scanner.Punctuation
import GoTokens.Proofs.Scanner.Names
import GoTokens.Proofs.Binary64.Magnitude
import GoTokens.Proofs.Binary64.Rounding
import GoTokens.Proofs.Binary64.Nearest
import GoTokens.Proofs.Json.Grammar
import GoTokens.Proofs.Json.Reader
import GoTokens.Proofs.Binary64.Text
import GoTokens.Proofs.Lexeme.Text
import GoTokens.Proofs.Lexeme.Spelled
import GoTokens.Proofs.Listing.Table
import GoTokens.Proofs.Command.Listings
import GoTokens.Proofs.Listing.Json
import GoTokens.Proofs.Scanner.Order
import GoTokens.Proofs.Scanner.Events
import GoTokens.Proofs.Command.Numbers
import GoTokens.Proofs.Toml.Document
import GoTokens.Proofs.Configuration
import GoTokens.Proofs.Command.Create
