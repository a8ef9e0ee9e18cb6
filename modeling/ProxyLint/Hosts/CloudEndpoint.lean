import ProxyLint.Text.Digit
import ProxyLint.Text.Search

/-!
# Cloud endpoints

Providers give their customers host names that end in a characteristic way,
sometimes with the name of a region in between.  A few infixes say that a host
is a content network or a load balancer without naming its provider.

Letters match in either case and also match the two characters outside ASCII
that are case variants of letters, the long s and the Kelvin sign.  The digits
of a region name may come from any script.
-/

namespace ProxyLint

/-- One step of a host pattern. -/
inductive PatternPart where
  | letter (value : Char)
  | letters
  | digits
deriving DecidableEq, Repr

structure CloudPattern where
  parts : List PatternPart
  /-- Whether the pattern has to reach the end of the host. -/
  atEnd : Bool
  provider : String
deriving DecidableEq, Repr

namespace PatternPart

/-- Whether a character is a case variant of a small letter or a symbol. -/
def isVariantOf (value character : Char) : Bool :=
  character.toLower = value || (value = 's' && character = 'ſ') ||
    (value = 'k' && character = '\u212A')

def isLetter (character : Char) : Bool :=
  character.isAlpha || character = 'ſ' || character = '\u212A'

/-- Whether a list of parts matches at the start of a text.  A run of letters
or digits has at least one character. -/
def matchesAt (atEnd : Bool) : List PatternPart → List Char → Bool
  | [], rest => !atEnd || rest.isEmpty
  | _ :: _, [] => false
  | .letter value :: parts, character :: rest =>
      isVariantOf value character && matchesAt atEnd parts rest
  | .letters :: parts, character :: rest =>
      isLetter character &&
        (matchesAt atEnd parts rest || matchesAt atEnd (.letters :: parts) rest)
  | .digits :: parts, character :: rest =>
      Text.isDecimalDigit character &&
        (matchesAt atEnd parts rest || matchesAt atEnd (.digits :: parts) rest)
termination_by structural _ text => text

end PatternPart

namespace CloudPattern

open PatternPart

def occursIn (pattern : CloudPattern) : List Char → Bool
  | [] => matchesAt pattern.atEnd pattern.parts []
  | character :: rest =>
      matchesAt pattern.atEnd pattern.parts (character :: rest) ||
        pattern.occursIn rest

def literally (text : String) : List PatternPart :=
  text.toList.map .letter

/-- A region name: two words and a number between hyphens. -/
def region : List PatternPart :=
  [.letters, .letter '-', .letters, .letter '-', .digits]

/-- Hosts that end in a given way. -/
def ending (suffix provider : String) : CloudPattern :=
  ⟨literally suffix, true, provider⟩

/-- Hosts that end in a given way with a region name in between. -/
def regional (before after provider : String) : CloudPattern :=
  ⟨literally before ++ region ++ literally after, true, provider⟩

/-- Hosts with a given label inside. -/
def containing (label provider : String) : CloudPattern :=
  ⟨literally label, false, provider⟩

/-- The host names that a provider gives to its customers. -/
def providers : List CloudPattern :=
  [ ending ".elb.amazonaws.com" "AWS ELB",
    regional ".elb." ".amazonaws.com" "AWS ELB",
    ending ".elasticbeanstalk.com" "AWS Elastic Beanstalk",
    ending ".cloudfront.net" "AWS CloudFront",
    regional ".execute-api." ".amazonaws.com" "AWS API Gateway",
    regional ".lambda-url." ".on.aws" "AWS Lambda URL",
    ending ".s3.amazonaws.com" "AWS S3",
    regional ".s3." ".amazonaws.com" "AWS S3",
    ending ".run.app" "Google Cloud Run",
    ending ".cloudfunctions.net" "Google Cloud Functions",
    ending ".appspot.com" "Google App Engine",
    ending ".googleapis.com" "Google APIs",
    ending ".azurewebsites.net" "Azure App Service",
    ending ".azure-api.net" "Azure API Management",
    ending ".cloudapp.azure.com" "Azure Cloud Service",
    ending ".blob.core.windows.net" "Azure Blob Storage",
    ending ".azureedge.net" "Azure CDN",
    ending ".trafficmanager.net" "Azure Traffic Manager",
    ending ".workers.dev" "Cloudflare Workers",
    ending ".pages.dev" "Cloudflare Pages",
    ending ".herokuapp.com" "Heroku",
    ending ".vercel.app" "Vercel",
    ending ".now.sh" "Vercel (legacy)",
    ending ".netlify.app" "Netlify",
    ending ".netlify.com" "Netlify",
    ending ".railway.app" "Railway",
    ending ".onrender.com" "Render",
    ending ".ondigitalocean.app" "DigitalOcean App Platform",
    ending ".fly.dev" "Fly.io" ]

/-- Names that only say what kind of service a host is. -/
def services : List CloudPattern :=
  [ containing ".cdn." "CDN endpoint",
    containing ".lb." "Load balancer",
    containing ".loadbalancer." "Load balancer" ]

end CloudPattern

/-- The provider of a cloud endpoint.  The first pattern that matches decides,
and providers come before kinds of service. -/
def cloudProvider? (host : List Char) : Option String :=
  ((CloudPattern.providers ++ CloudPattern.services).find? fun pattern =>
    pattern.occursIn host).map CloudPattern.provider

end ProxyLint
